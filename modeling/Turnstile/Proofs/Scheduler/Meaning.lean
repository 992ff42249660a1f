import Turnstile.Exchange.InMemory
import Turnstile.Exchange.Scripted
import Turnstile.Proofs.Request.Answer
import Turnstile.Proofs.Request.Turns
import Turnstile.Proofs.Scheduler.Course

/-!
# Requests come to what their programs mean

Whatever a scheduler does meanwhile, and however the bodies are cut into pieces, a request that is
answered is answered with what its program meant when it arrived, by the meaning that is read off
the program itself: with the same class, path, headers, cookies and cleaners, and with the same
notes left in the same order. A request that waits for its body with nothing left to look at waits
by this meaning too, and neither a program on its worker nor a reader with its events goes on for
ever.
-/

namespace Turnstile

open Meaning (State Verdict Delivery)

instance : Exchange.Steady Scripted where
  readBody _ := rfl
  wake h := by cases h

instance : Exchange.Steady InMemory where
  readBody _ := rfl
  wake {x x' events} h := by
    change (if 0 < x.refills then some _ else none) = _ at h
    split at h <;> cases h
    rfl

namespace Request

variable {σ : Type}

/-- A request comes to what its program means, for everything that can come later. -/
structure Means (kindName : Kind → String) (meaning : List Input → Verdict × State)
    (r : Request σ) (told : List Happening) : Prop where
  /-- The response it leaves its worker or its reader with is what the program means. -/
  responds : ∀ response, r.stage = .leaving (.respond response) ∨
    r.stage = .departed (.respond response) →
    ∀ later, meaning later = (.responds response, ⟨r.dossier, deliveries later, notesOf told⟩)
  /-- The failure it leaves its worker or its reader with is what the program means. -/
  fails : ∀ failure, r.stage = .leaving (.fail failure) ∨ r.stage = .departed (.fail failure) ∨
      r.stage = .failing failure → failure.isVerdict = true →
    ∀ later, meaning later = (.fails failure, ⟨r.dossier, deliveries later, notesOf told⟩)
  /-- Where it waits for its body with nothing left to look at, the program waits. -/
  waits : ∀ reader next, r.stage = .reading reader next → r.unread = [] →
    meaning [] = (.waits, ⟨r.dossier, [], notesOf told⟩)
  /-- Every answer is what the program means. -/
  answers : ∀ answer ∈ answersOf told, ∀ later, answer.Agrees kindName (meaning later)
  /-- A request that is about to leave, or has left without being refused, has an answer. -/
  answered : r.stage.isAnswered = true → answersOf told ≠ []

end Request

namespace Scheduler

variable {σ : Type} [Exchange σ] {s : Scheduler σ} {m : Move σ} {moves : List (Move σ)} {n : Nat}
  {r : Request σ}

/-- What a program means when it arrives, with what the transport delivers for it. -/
def meaningOf (s : Scheduler σ) (exchange : σ) (program : Program) (bodies : List Delivery) :
    Verdict × State :=
  Meaning.ofWhole ⟨Exchange.metadata exchange, s.config.maxBodyBytes⟩ program
    ⟨.new (s.hooks.classOf s.config.defaultQos s.requests.size (Exchange.metadata exchange))
      (Exchange.metadata exchange).path, bodies, []⟩

theorem ranking_notMem_inputs (h : ∀ qos, .reprioritize n qos ∉ moves) (qos : Qos) :
    .ranking qos ∉ inputs n s moves := by
  induction moves generalizing s with
  | nil => exact List.not_mem_nil
  | cons m moves ih =>
    have hrest := ih (s := s.perform m) fun qos hmem ↦ h qos (List.mem_cons_of_mem _ hmem)
    rw [inputs]
    split
    next r hr =>
      rw [List.mem_cons]
      rintro (hinput | hmem)
      · cases m with
        | reprioritize k qos' =>
          rw [Move.input] at hinput
          split at hinput <;> cases hinput
          next hk => exact h qos (hk ▸ List.mem_cons_self)
        | advance k =>
          rw [Move.input] at hinput
          split at hinput
          · unfold Request.nextInput at hinput
            split at hinput
            · split at hinput
              split at hinput <;> cases hinput
            · cases hinput
          · cases hinput
        | deliver k direction events =>
          rw [Move.input] at hinput
          split at hinput <;> cases hinput
        | forget k =>
          rw [Move.input] at hinput
          split at hinput <;> cases hinput
        | _ => cases hinput
      · exact hrest hmem
    · exact hrest

/-! ## Nothing goes on for ever -/

omit [Exchange σ] in
theorem getElem?_absorb {told : Request σ × List Happening} (hordinal : told.1.ordinal = n)
    (hn : n < s.requests.size) : (s.absorb told).requests[n]? = some told.1 :=
  (put_getElem? (hordinal ▸ hn)).trans (if_pos hordinal)

/-- A program that has its worker stands at a gate or leaves after finitely many turns. -/
theorem Reachable.exists_turns (h : s.Reachable) (hr : s.requests[n]? = some r)
    (hstage : r.stage = .running) :
    ∃ k r', (s.performAll (List.replicate k (.advance n))).requests[n]? = some r' ∧
      (r'.stage = .gated ∨ ∃ exit, r'.stage = .leaving exit) := by
  obtain ⟨p, hp⟩ := Option.isSome_iff_exists.mp
    ((h.sound.wellFormed hr).program (by rw [hstage]; rfl))
  -- each turn leaves a program that comes to an end sooner, whatever it is answered
  induction Program.acc_turns p generalizing s r with
  | intro p _ ih =>
    have hperform : s.perform (.advance n) = s.absorb r.turn := by
      rw [perform, advance, hr]
      dsimp only
      rw [advanceRequest, hstage]
    have hordinal : r.turn.1.ordinal = n := by
      have hframe := (Request.turned_turn (Option.isSome_iff_exists.mpr ⟨p, hp⟩)).frame
      exact (congrArg (·.ordinal) hframe).trans (h.sound.numbered.ordinal hr)
    have hr' : (s.perform (.advance n)).requests[n]? = some r.turn.1 := by
      rw [hperform]
      exact getElem?_absorb hordinal (lt_size hr)
    rcases Request.turn_cases hp with ⟨hrunning, p', hp', hturns⟩ | hends
    · obtain ⟨k, r', hk, hends⟩ := ih p' hturns (h.move _) hr' hrunning hp'
      exact ⟨k + 1, r', hk, hends⟩
    · exact ⟨1, r.turn.1, hr', hends⟩

theorem Reachable.getElem?_perform_reading (h : s.Reachable) (hr : s.requests[n]? = some r)
    {reader : BodyReader} {next : Value → Program} (hstage : r.stage = .reading reader next)
    {event : IoEvent} {rest : Inbox}
    (hevent : r.nextEvent? = some (event, { r with reads := some rest })) :
    (s.perform (.advance n)).requests[n]? =
      some (({ r with reads := some rest } : Request σ).receiveRead reader next event) := by
  have hperform : s.perform (.advance n) =
      s.absorb (({ r with reads := some rest } : Request σ).receive event) := by
    simp only [perform, advance, hr, advanceRequest, hstage, hevent]
  have hn : r.ordinal = n := h.sound.numbered.ordinal hr
  have hordinal :
      (({ r with reads := some rest } : Request σ).receiveRead reader next event).ordinal = n := by
    unfold Request.receiveRead
    split <;> exact hn
  rw [hperform, Request.receive]
  simp only [hstage]
  exact getElem?_absorb hordinal (lt_size hr)

theorem Reachable.exists_events (h : s.Reachable) (hr : s.requests[n]? = some r)
    {reader : BodyReader} {next : Value → Program} (hstage : r.stage = .reading reader next) :
    ∃ k r', (s.performAll (List.replicate k (.advance n))).requests[n]? = some r' ∧
      ((∃ reader next, r'.stage = .reading reader next ∧ r'.unread = []) ∨
        r'.stage = .returning ∨
        (∃ limit, r'.stage = .departed (.respond (.tooLarge limit))) ∨
        ∃ e, r'.stage = .failing (.read e)) := by
  obtain ⟨events, hevents⟩ : ∃ events, r.unread = events := ⟨_, rfl⟩
  induction events generalizing s r reader with
  | nil => exact ⟨0, r, hr, .inl ⟨reader, next, hstage, hevents⟩⟩
  | cons event events ih =>
    obtain ⟨box, hbox, hbox'⟩ : ∃ box, r.reads = some box ∧ box.events = event :: events := by
      unfold Request.unread at hevents
      cases hreads : r.reads with
      | none =>
        rw [hreads] at hevents
        cases hevents
      | some box =>
        rw [hreads] at hevents
        exact ⟨box, rfl, hevents⟩
    have hnext : r.nextEvent? =
        some (event, { r with reads := some { box with events } }) := by
      rw [Request.nextEvent?, hstage]
      simp only [hbox, Inbox.pop?, hbox', Option.bind_eq_bind, Option.bind_some, Option.map_some]
    have hr' := h.getElem?_perform_reading hr hstage hnext
    rcases Request.receiveRead_cases { r with reads := some { box with events } } reader next event
      with ⟨reader', hreading⟩ | hends
    · rw [hreading] at hr'
      obtain ⟨k, r', hk, hends⟩ := ih (h.move _) hr' rfl rfl
      exact ⟨k + 1, r', hk, hends⟩
    · exact ⟨1, _, hr', .inr hends⟩

/-! ## Every request comes to what its program means -/

variable [Exchange.Steady σ]

omit [Exchange.Steady σ] in
theorem attends_new (t : Meaning.Terms) (ordinal : Nat) (qos : Qos) {exchange : σ}
    (program : Program) (h : Exchange.metadata exchange = t.metadata) :
    (Request.new ordinal qos exchange program).Attends t where
  metadata _ := h
  reading h := by cases h

theorem Reachable.means (h : s.Reachable) (exchange : σ) (program : Program)
    (hr : ((s.arrive exchange program).performAll moves).requests[s.requests.size]? = some r)
    (hranking : ∀ qos, .reprioritize s.requests.size qos ∉ moves) :
    Request.Means s.hooks.kindName
      (fun later ↦ s.meaningOf exchange program (Request.deliveries
        (inputs s.requests.size (s.arrive exchange program) moves ++ later)))
      r (((s.arrive exchange program).performAll moves).history s.requests.size) := by
  have harrived : (s.arrive exchange program).Reachable := h.move (.arrive exchange program)
  obtain ⟨hnew, hhistory⟩ := h.arrival exchange program
  obtain ⟨r', told, hr', htold, hrun⟩ := harrived.run_performAll moves hnew
  cases hr.symm.trans hr'
  rw [hhistory, List.nil_append] at htold
  rw [htold]
  have hinputs := ranking_notMem_inputs (s := s.arrive exchange program) hranking
  have hattends := attends_new ⟨Exchange.metadata exchange, s.config.maxBodyBytes⟩ s.requests.size
    (s.hooks.classOf s.config.defaultQos s.requests.size (Exchange.metadata exchange)) program rfl
  -- at the arrival the request comes to what its program means, and the run keeps that
  obtain ⟨-, ha, hcomes⟩ := hrun.comesTo rfl (Request.wellFormed_new _ _ _ _) hattends hinputs
  refine {
    responds := fun response hstage later ↦ ?responds
    fails := fun failure hstage hverdict later ↦ ?fails
    waits := fun reader next hstage hunread ↦ ?waits
    answers := fun answer hanswer later ↦ ?answers
    answered := (hrun.answered (Request.wellFormed_new _ _ _ _) rfl).2 }
  case responds =>
    refine Option.some.inj (hcomes later _ ?_)
    rcases hstage with hstage | hstage <;> rw [Request.comesTo?, hstage] <;> rfl
  case fails =>
    refine Option.some.inj (hcomes later _ ?_)
    rcases hstage with hstage | hstage | hstage <;> rw [Request.comesTo?, hstage] <;>
      exact if_pos hverdict
  case waits =>
    obtain ⟨-, hsize, -⟩ := ha.reading hstage
    rw [← Journal.length_toList] at hsize
    refine Option.some.inj (hcomes [] _ ?_)
    rw [Request.comesTo?_reading ha hstage, hunread]
    exact congrArg some
      (congrArg (Meaning.andThen · _) (congrArg (·, _) (Meaning.ofBody_nil hsize)))
  case answers =>
    exact hrun.answers rfl (Request.wellFormed_new _ _ _ _) hattends hinputs hanswer rfl

/-- After every run from its arrival, and whatever came before, a request that nobody moved to
another class comes to what its program meant when it arrived, and is answered with that; if it has
a worker, it stands at a gate or leaves after finitely many turns; and if it reads its body, it has
looked at all there is or goes on after finitely many events. -/
theorem performAll_meaning (h : s.Reachable) (exchange : σ) (program : Program)
    (hr : ((s.arrive exchange program).performAll moves).requests[s.requests.size]? = some r)
    (hranking : ∀ qos, .reprioritize s.requests.size qos ∉ moves) :
    Request.Means s.hooks.kindName
        (fun later ↦ s.meaningOf exchange program (Request.deliveries
          (inputs s.requests.size (s.arrive exchange program) moves ++ later)))
        r (((s.arrive exchange program).performAll moves).history s.requests.size) ∧
      (r.stage = .running → ∃ k r', (((s.arrive exchange program).performAll moves).performAll
        (List.replicate k (.advance s.requests.size))).requests[s.requests.size]? = some r' ∧
          (r'.stage = .gated ∨ ∃ exit, r'.stage = .leaving exit)) ∧
      ∀ reader next, r.stage = .reading reader next →
        ∃ k r', (((s.arrive exchange program).performAll moves).performAll
          (List.replicate k (.advance s.requests.size))).requests[s.requests.size]? = some r' ∧
            ((∃ reader next, r'.stage = .reading reader next ∧ r'.unread = []) ∨
              r'.stage = .returning ∨
              (∃ limit, r'.stage = .departed (.respond (.tooLarge limit))) ∨
              ∃ e, r'.stage = .failing (.read e)) := by
  have hreachable : ((s.arrive exchange program).performAll moves).Reachable :=
    (h.move (.arrive exchange program)).performAll moves
  exact ⟨h.means exchange program hr hranking, fun hstage ↦ hreachable.exists_turns hr hstage,
    fun reader next hstage ↦ hreachable.exists_events hr hstage⟩

/-- A program that leaves a note, reads its body of at most four bytes, and responds. -/
def readsBody : Program :=
  .flatMap (.suspend (.act (.note "before"))) fun _ ↦
    .flatMap (.suspend (.readBody 4)) fun _ ↦ .pure (.response (.empty 204))

/-- An exchange whose connection fails behind two pieces of the body. -/
def brokenBody : Scripted :=
  { Scripted.new default with bodyEvents := [.data [1], .data [2], .error ⟨.timedOut, "late"⟩] }

/-- A request moves on until its body is looked at, while the scheduler is stopped. -/
def lookedAt : List (Move Scripted) := [.advance 0, .stop] ++ List.replicate 8 (.advance 0)

/-- With one worker the request fails as its program does by its meaning. -/
theorem performAll_meaning_brokenBody :
    ∃ s : Scheduler Scripted, s.Reachable ∧
      (∀ qos, .reprioritize s.requests.size qos ∉ lookedAt) ∧
      ∃ r, ((s.arrive brokenBody readsBody).performAll lookedAt).requests[s.requests.size]? =
          some r ∧
        ∀ later, s.meaningOf brokenBody readsBody (Request.deliveries
            (inputs s.requests.size (s.arrive brokenBody readsBody) lookedAt ++ later)) =
          (.fails (.read ⟨.timedOut, "late"⟩),
            ⟨r.dossier, Request.deliveries later, Request.notesOf
              (((s.arrive brokenBody readsBody).performAll lookedAt).history
                s.requests.size)⟩) := by
  have hstart : start? (.sized 1) (.plain .normal) =
    .ok (.new (.sized 1) (.plain .normal) : Scheduler Scripted) := rfl
  have hranking (qos : Qos) : Move.reprioritize 0 qos ∉ lookedAt := by simp [lookedAt]
  have hstage : (((Scheduler.new (.sized 1) (.plain .normal)).arrive brokenBody
      readsBody).performAll lookedAt).requests[0]?.map Request.stage =
        some (.failing (.read ⟨.timedOut, "late"⟩)) := by cbv
  obtain ⟨r, hr, hstage⟩ := Option.map_eq_some_iff.mp hstage
  obtain ⟨hmeans, -⟩ := performAll_meaning (reachable_of_start? hstart) brokenBody readsBody hr
    hranking
  exact ⟨_, reachable_of_start? hstart, hranking, r, hr,
    hmeans.fails _ (.inr (.inr hstage)) rfl⟩

end Scheduler

end Turnstile
