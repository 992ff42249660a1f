import Turnstile.Proofs.Request.Renumber
import Turnstile.Proofs.Scheduler.Shutdown

/-!
# Requests alone

A request that is not refused does what it would do if it were the only one: on a scheduler of its
own with the same settings, where it never waits for a slot, and with the same events at the same
points of its course. What the other requests do is for it a matter of waiting, and waiting leaves
it as it is.

## Two runs

This is a statement about two runs, which `Scheduler.Alone` relates. Alone the request has
another ordinal, so its part of the journal is the same up to the ordinal that the sensor is told
(`Request.renumber`), and the hooks are those that treat everybody as they treated it
(`Hooks.only`).
-/

namespace Turnstile

namespace Circumstances

variable {σ : Type} [Exchange σ]

theorem advance_renumber (c : Circumstances) (r : Request σ) (k : Nat) :
    ({ c with hooks := c.hooks.only r.ordinal } : Circumstances).advance (r.renumber k) =
      Request.renumbered k (c.advance r) := by
  have hstage' : (r.renumber k).stage = r.stage := rfl
  rw [advance, advance, hstage']
  cases hstage : r.stage with
  | ready => cases c.first <;> rfl
  | running => exact r.turn_renumber k
  | gated => cases c.opened <;> rfl
  | departed exit => exact r.depart_renumber k _ _ exit
  | reading _ _ | writing _ =>
    dsimp only
    rw [r.nextEvent?_renumber k]
    cases r.nextEvent? with
    | none => rfl
    | some taken => exact taken.2.receive_renumber k taken.1
  | failing failure => exact Request.fail_renumber c.hooks r k failure
  | finishing =>
    have hfinished := Request.finish_renumber c.hooks r k
    exact congrArg (fun x ↦ ({ x.2.1 with stage := .gone (.ofFinish x.1) }, x.2.2)) hfinished
  | refusing reason admitted =>
    have hrefused := Request.refuse_renumber c.hooks r k reason
    exact congrArg (fun x ↦ ({ x.1 with stage := .gone (.refused reason) }, x.2)) hrefused
  | _ => rfl

theorem perform_renumber (c : Circumstances) (r : Request σ) (k : Nat) (m : Scheduler.Move σ) :
    ({ c with hooks := c.hooks.only r.ordinal } : Circumstances).perform (r.renumber k) m =
      Request.renumbered k (c.perform r m) := by
  cases m with
  | advance n => exact c.advance_renumber r k
  | deliver n direction events => exact congrArg (·, []) (r.deliver_renumber k events direction)
  | wake n =>
    rw [perform, perform, Request.renumber]
    dsimp only
    cases Exchange.wake r.exchange <;> rfl
  | forget n =>
    have hlost (stage : Stage) := congrArg (fun x : Request σ × List Happening ↦
      ({ x.1 with stage := .lost }, x.2))
      (Request.drop_renumber c.hooks { r with stage, reads := none, writes := none } k)
    rw [perform, perform, forget, forget, Request.renumber]
    dsimp only
    cases r.stage with
    | reading reader next => exact hlost _
    | writing writer => exact hlost _
    | _ => rfl
  | reprioritize n qos =>
    rw [perform, perform, Request.renumber]
    dsimp only
    cases r.stage.isQueued <;> rfl
  | _ => rfl

omit [Exchange σ] in
theorem forget_of_not_waiting (c : Circumstances) {r : Request σ} (h : r.isWaiting = false) :
    c.forget r = ({ r with reads := none, writes := none }, []) := by
  rw [forget]
  cases hstage : r.stage <;> first | rfl | simp [Request.isWaiting, hstage] at h

end Circumstances

namespace Request

variable {σ : Type} {hooks : Hooks} {config : Config} {r r' : Request σ} {input : Input}
  {told : List Happening}

/-- The request as it is alone, with the first ordinal and without waiting for a slot. -/
def alone (r : Request σ) : Request σ := { r with ordinal := 0, stage := r.stage.promoted }

theorem alone_eq_renumber (h : r.stage ≠ .queued) : r.alone = r.renumber 0 := by
  rw [alone, renumber]
  cases hstage : r.stage <;> first | rfl | exact absurd hstage h

/-- A request waits in the queue after a step only if it did before or has asked for a slot. -/
theorem Step.queued_cases [Exchange σ] (h : Step hooks config r input r' told) (hw : r.WellFormed)
    (hqueued : r'.stage = .queued) :
    r.stage = .queued ∨ r.stage = .arriving ∨ r.stage = .returning := by
  cases h with
  | stay => exact .inl hqueued
  | keepRank qos => exact .inl hqueued
  | rank qos h => exact .inl h
  | pass h =>
    change _ = _ at hqueued
    subst hqueued
    generalize r.stage = before at h ⊢
    cases h with
    | enqueued => exact .inr (.inl rfl)
    | requeued => exact .inr (.inr rfl)
  | own h =>
    have hplace := (h.kept hw).place
    rw [hqueued] at hplace
    exact .inl (Stage.place_eq_queue.mp hplace.symm)
  | _ => cases hqueued

end Request

namespace Scheduler

open Request (callsOf notesOf cleanersOf)

variable {σ : Type} {s l : Scheduler σ} {m : Move σ} {moves : List (Move σ)} {n : Nat}
  {r : Request σ}

/-! ## The moves of one request -/

/-- The same move about the request with the ordinal `k`. -/
def Move.renumber (k : Nat) : Move σ → Move σ
  | .advance _ => .advance k
  | .deliver _ direction events => .deliver k direction events
  | .wake _ => .wake k
  | .forget _ => .forget k
  | .openGate _ => .openGate k
  | .reprioritize _ qos => .reprioritize k qos
  | m => m

theorem Move.target?_renumber {k : Nat} (hm : m.target? = some n) :
    (m.renumber k).target? = some k := by
  cases m <;> first | rfl | cases hm

theorem perform_renumber_move [Exchange σ] (c : Circumstances) (r : Request σ) (k : Nat)
    (m : Move σ) : c.perform r (m.renumber k) = c.perform r m := by
  cases m <;> rfl

theorem perform_alone_of_resting [Exchange σ] (c c' : Circumstances)
    (hrests : r.stage = .queued ∨ ∃ admission : Admission, r.stage = admission.stage)
    (hadvance : ∀ k, m ≠ .advance k) (hrank : ∀ k qos, m ≠ .reprioritize k qos) :
    c'.perform r.alone m =
      ((c.perform r m).1.alone, (c.perform r m).2.map (Happening.renumber 0)) := by
  have hwaits : r.alone.isWaiting = false ∧ r.isWaiting = false := by
    rcases hrests with hstage | ⟨admission, hstage⟩
    · simp [Request.isWaiting, Request.alone, hstage, Stage.promoted]
    · cases admission <;>
        simp [Request.isWaiting, Request.alone, hstage, Admission.stage, Stage.promoted]
  cases m with
  | advance k => exact absurd rfl (hadvance k)
  | reprioritize k qos => exact absurd rfl (hrank k qos)
  | deliver k direction events => cases direction <;> rfl
  | wake k =>
    rw [Circumstances.perform, Circumstances.perform, Request.alone]
    dsimp only
    cases Exchange.wake r.exchange <;> rfl
  | forget k =>
    rw [Circumstances.perform, Circumstances.perform, c'.forget_of_not_waiting hwaits.1,
      c.forget_of_not_waiting hwaits.2]
    rfl
  | _ => rfl

/-- The request waits in the queue, or behind others for a worker. -/
def waits (s : Scheduler σ) (n : Nat) : Bool := s.inQueue n || s.jobs.tail.contains n

/-- What a move is for the request with the ordinal `n`, on a scheduler of its own: a move about it
is one unless it waits and can not go on, and so is its arrival. -/
def aloneMove? (s : Scheduler σ) (n : Nat) (m : Move σ) : Option (Move σ) :=
  if m.target? = some n then
    if m.isOwn n && s.waits n then none else some (m.renumber 0)
  else if m.isArrival && s.requests.size = n then some m else none

/-- What the moves of a run are for the request with the ordinal `n`, on a scheduler of its own. -/
def aloneMoves [Exchange σ] (n : Nat) : Scheduler σ → List (Move σ) → List (Move σ)
  | _, [] => []
  | s, m :: moves => (s.aloneMove? n m).toList ++ aloneMoves n (s.perform m) moves

theorem Placed.waits_iff (hp : s.Placed) (hr : s.requests[n]? = some r) :
    s.waits n = true ↔ r.stage = .queued ∨ r.stage = .ready ∧ s.jobs.head? ≠ some n := by
  have hnodup := hp.nodup_jobs
  have htail : n ∈ s.jobs.tail ↔ r.stage = .ready ∧ s.jobs.head? ≠ some n := by
    rw [← hp.mem_jobs hr]
    cases hjobs : s.jobs with
    | nil => simp
    | cons first rest =>
      rw [hjobs, List.nodup_cons] at hnodup
      rw [List.tail_cons, List.head?_cons, List.mem_cons, ne_eq, Option.some_inj]
      constructor
      · intro hmem
        refine ⟨.inr hmem, ?_⟩
        rintro rfl
        exact hnodup.1 hmem
      · rintro ⟨rfl | hmem, hne⟩
        · exact absurd rfl hne
        · exact hmem
  rw [waits, Bool.or_eq_true, hp.inQueue_iff, List.contains_iff_mem, htail, placeOf?, hr,
    Option.map_some, Option.some_inj, Stage.place_eq_queue]

/-! ## A scheduler with one request of another -/

/-- The request with an ordinal, if it has arrived, was not refused and is not about to be. -/
def isServed (s : Scheduler σ) (n : Nat) : Bool :=
  s.requests[n]?.all (·.stage.refusedFor? = none)

theorem isServed_iff :
    s.isServed n = true ↔ ∀ r, s.requests[n]? = some r → r.stage.refusedFor? = none := by
  rw [isServed]
  cases s.requests[n]? <;> simp

theorem Reachable.isServed_of_perform [Exchange σ] (h : s.Reachable)
    (hserved : (s.perform m).isServed n = true) : s.isServed n = true := by
  refine isServed_iff.mpr fun r hr ↦ ?_
  obtain ⟨r', told, hr', -, hstep⟩ := (h.change m).step h.sound hr
  have hafter := isServed_iff.mp hserved r' hr'
  cases hreason : r.stage.refusedFor? with
  | none => rfl
  | some reason =>
    rw [hstep.refusedFor?_of_some hreason] at hafter
    cases hafter

theorem Reachable.isServed_of_performAll [Exchange σ] (h : s.Reachable)
    (hserved : (s.performAll moves).isServed n = true) : s.isServed n = true := by
  induction moves generalizing s with
  | nil => exact hserved
  | cons m moves ih => exact h.isServed_of_perform (ih (h.move m) hserved)

/-- The scheduler `l` has nobody but the request with the ordinal `n` of `s`. -/
structure Alone (n : Nat) (s l : Scheduler σ) : Prop where
  hooks : l.hooks = s.hooks.only n
  config : l.config = s.config
  workers : 0 < l.config.workerCount
  running : l.pool.stopped = false
  size : l.requests.size ≤ 1
  request : l.requests[0]? = s.requests[n]?.map Request.alone
  history : l.history 0 = (s.history n).map (Happening.renumber 0)
  permits : l.permits.count 0 = s.permits.count n

namespace Alone

theorem eq_zero (h : Alone n s l) {k : Nat} {q : Request σ} (hk : l.requests[k]? = some q) :
    k = 0 :=
  Nat.lt_one_iff.mp (Nat.lt_of_lt_of_le (lt_size hk) h.size)

theorem head?_jobs (h : Alone n s l) (hp : l.Placed) {q : Request σ} (hq : l.requests[0]? = some q)
    (hready : q.stage = .ready) : l.jobs.head? = some 0 := by
  have hmem := (hp.mem_jobs hq).mpr hready
  obtain ⟨first, hfirst⟩ := Option.ne_none_iff_exists'.mp
    (List.head?_eq_none_iff.not.mpr (List.ne_nil_of_mem hmem))
  obtain ⟨q', hq', -⟩ := Option.map_eq_some_iff.mp
    ((hp.jobs first).mp (List.mem_of_mem_head? hfirst))
  rw [hfirst, h.eq_zero hq']

theorem isGated (h : Alone n s l) :
    l.requests[0]?.any (·.stage.isGated) = s.requests[n]?.any (·.stage.isGated) := by
  rw [h.request]
  cases s.requests[n]? with
  | none => rfl
  | some r =>
    change r.stage.promoted.isGated = r.stage.isGated
    cases r.stage <;> rfl

variable [Exchange σ]

theorem entry_eq_ready (h : Alone n s l) (hl : l.Reachable) {q : Request σ}
    (hq : l.requests[0]? = some q) {admission : Admission}
    (hasks : q.stage = admission.stage) : l.entry q admission = .ready := by
  have hlive : l.pool.live = 0 := by
    refine hl.placed.live.trans (population_eq_zero fun k ↦ ?_)
    rw [placeOf?]
    cases hk : l.requests[k]? with
    | none => rfl
    | some q' =>
      obtain rfl := h.eq_zero hk
      cases hq.symm.trans hk
      rw [Option.map_some, Option.any_some, hasks]
      cases admission <;> rfl
  have hfree : l.pool.live < l.pool.workers := by
    rw [hlive, hl.limits.1]
    exact h.workers
  obtain ⟨p', hp'⟩ := hl.sound.balanced.enroll_of_free h.running hfree q.rank admission
  rw [entry, hp']

theorem perform_asking (h : Alone n s l) (hl : l.Reachable)
    (hr : s.requests[n]? = some r) {admission : Admission} (hasks : r.stage = admission.stage)
    (hserved : ((s.circumstances r).perform r (.advance n)).1.stage.refusedFor? = none) :
    (l.circumstances r.alone).perform r.alone (.advance n) =
      (((s.circumstances r).perform r (.advance n)).1.alone,
        ((s.circumstances r).perform r (.advance n)).2.map (Happening.renumber 0)) := by
  have halone : l.requests[0]? = some r.alone := by rw [h.request, hr, Option.map_some]
  have hasks' : r.alone.stage = admission.stage := by
    rw [Request.alone, hasks]
    cases admission <;> rfl
  have hready := h.entry_eq_ready hl halone hasks'
  have hself : (s.circumstances r).perform r (.advance n) =
      ({ r with stage := s.entry r admission }, []) := Circumstances.perform_of_asking _ hasks n
  have halone' : (l.circumstances r.alone).perform r.alone (.advance n) =
      ({ r.alone with stage := l.entry r.alone admission }, []) :=
    Circumstances.perform_of_asking _ hasks' n
  rw [hself] at hserved
  have hpromoted : (s.entry r admission).promoted = .ready := by
    rw [entry] at hserved ⊢
    split at hserved
    · rfl
    · rfl
    · cases hserved
  rw [hself, halone', hready, List.map_nil, Request.alone, Request.alone, hpromoted]

/-- A request that neither waits for a slot nor asks for one finds the same circumstances alone. -/
theorem perform_going (h : Alone n s l) (hs : s.Reachable) (hl : l.Reachable)
    (hm : m.target? = some n) (hr : s.requests[n]? = some r)
    (hgoes : ¬(r.stage = .queued ∨ ∃ admission : Admission, r.stage = admission.stage))
    (hwaits : m = .advance n → s.waits n = false) :
    (l.circumstances r.alone).perform r.alone m =
      (((s.circumstances r).perform r m).1.alone,
        ((s.circumstances r).perform r m).2.map (Happening.renumber 0)) := by
  have halone : l.requests[0]? = some r.alone := by rw [h.request, hr, Option.map_some]
  have hordinal := hs.sound.numbered.ordinal hr
  obtain ⟨hqueued, hasks⟩ := not_or.mp hgoes
  have hrenumber : r.alone = r.renumber 0 := Request.alone_eq_renumber hqueued
  have hsame : (l.circumstances r.alone).perform r.alone m =
      Request.renumbered 0 ((s.circumstances r).perform r m) := by
    rw [← (s.circumstances r).perform_renumber r 0 m, ← hrenumber]
    refine Circumstances.perform_congr ?_ h.config ?_ ?_ ?_
    · exact h.hooks.trans (congrArg s.hooks.only hordinal.symm)
    · rintro k rfl hready
      cases hm
      have hfirst : s.jobs.head? = some n := by
        by_contra hbehind
        have hready' : r.stage = .ready := by
          rw [hrenumber] at hready
          exact hready
        rw [(hs.placed.waits_iff hr).mpr (.inr ⟨hready', hbehind⟩)] at hwaits
        cases hwaits rfl
      have hself : (s.circumstances r).first = true :=
        decide_eq_true (by rw [hordinal]; exact hfirst)
      have hself' : (l.circumstances r.alone).first = true :=
        decide_eq_true (h.head?_jobs hl.placed halone hready)
      exact hself'.trans hself.symm
    · intro
      exact circumstances_opened (by rw [hordinal]; exact h.permits)
    · intro k admission _ hstage
      rw [hrenumber] at hstage
      exact absurd ⟨admission, hstage⟩ hasks
  have hleft : ((s.circumstances r).perform r m).1.stage ≠ .queued := by
    intro hqueued'
    obtain ⟨r', told, hr', -, hstep⟩ := (hs.change m).step hs.sound hr
    cases (hs.affects hm hr).self.symm.trans hr'
    rcases hstep.queued_cases (hs.sound.wellFormed hr) hqueued' with hstage | hstage | hstage
    · exact hqueued hstage
    · exact hasks ⟨.fresh, hstage⟩
    · exact hasks ⟨.resumed, hstage⟩
  rw [hsame, Request.renumbered, Request.alone_eq_renumber hleft]

/-- What a move is for the request is the same alone, if it does not wait, is not ranked anew and is
not refused. -/
theorem perform_eq (h : Alone n s l) (hs : s.Reachable) (hl : l.Reachable)
    (hm : m.target? = some n) (hr : s.requests[n]? = some r)
    (hrank : ∀ k qos, m ≠ .reprioritize k qos) (hwaits : m = .advance n → s.waits n = false)
    (hserved : ((s.circumstances r).perform r m).1.stage.refusedFor? = none) :
    (l.circumstances r.alone).perform r.alone m =
      (((s.circumstances r).perform r m).1.alone,
        ((s.circumstances r).perform r m).2.map (Happening.renumber 0)) := by
  by_cases hrests : r.stage = .queued ∨ ∃ admission : Admission, r.stage = admission.stage
  · by_cases hadvance : m = .advance n
    · subst hadvance
      rcases hrests with hqueued | ⟨admission, hasks⟩
      · rw [(hs.placed.waits_iff hr).mpr (.inl hqueued)] at hwaits
        cases hwaits rfl
      · exact h.perform_asking hl hr hasks hserved
    · refine perform_alone_of_resting _ _ hrests ?_ hrank
      rintro k rfl
      cases hm
      exact hadvance rfl
  · exact h.perform_going hs hl hm hr hrests hwaits

/-- A move that is nothing for the request alone leaves the two related. -/
theorem of_still (h : Alone n s l) (hs : s.Reachable)
    (request : (s.perform m).requests[n]?.map Request.alone = s.requests[n]?.map Request.alone)
    (history : (s.perform m).history n = s.history n)
    (permits : (s.perform m).permits.count n = s.permits.count n) : Alone n (s.perform m) l := by
  have hframe := (hs.change m).frame hs.sound.balanced
  exact {
    hooks := by rw [h.hooks, hframe.2]
    config := by rw [h.config, hframe.1]
    workers := h.workers
    running := h.running
    size := h.size
    request := by rw [h.request, request]
    history := by rw [h.history, history]
    permits := by rw [h.permits, permits] }

theorem of_both {m' : Move σ} (h : Alone n s l) (hs : s.Reachable) (hl : l.Reachable)
    (hm' : m' ≠ .stop) (size : (l.perform m').requests.size ≤ 1)
    (request : (l.perform m').requests[0]? = (s.perform m).requests[n]?.map Request.alone)
    (history : (l.perform m').history 0 = ((s.perform m).history n).map (Happening.renumber 0))
    (permits : (l.perform m').permits.count 0 = (s.perform m).permits.count n) :
    Alone n (s.perform m) (l.perform m') := by
  have hframe := (hs.change m).frame hs.sound.balanced
  have hframe' := (hl.change m').frame hl.sound.balanced
  exact {
    hooks := by rw [hframe'.2, h.hooks, hframe.2]
    config := by rw [hframe'.1, h.config, hframe.1]
    workers := hframe'.1 ▸ h.workers
    running := ((hl.change m').stopped_of_ne hl.sound.balanced hm').trans h.running
    size := size
    request := request
    history := history
    permits := permits }

theorem perform_waits (h : Alone n s l) (hs : s.Reachable) (hwaits : s.waits n = true) :
    Alone n (s.perform (.advance n)) l := by
  cases hr : s.requests[n]? with
  | none =>
    obtain ⟨hrequests, hjournal⟩ := perform_of_missing (m := .advance n) rfl hr
    refine h.of_still hs (by rw [hrequests]) (history_congr hjournal) ?_
    rw [(hs.lists _).count_permits, passes?, hr]
    rfl
  | some r =>
    have hafter := hs.affects (m := .advance n) rfl hr
    have hordinal := hs.sound.numbered.ordinal hr
    have hstill : (s.circumstances r).perform r (.advance n) = (r, []) ∧
        r.stage.isGated = false := by
      rw [Circumstances.perform, Circumstances.advance]
      rcases (hs.placed.waits_iff hr).mp hwaits with hqueued | ⟨hready, hbehind⟩
      · rw [hqueued]
        exact ⟨rfl, rfl⟩
      · have hfirst : (s.circumstances r).first = false :=
          decide_eq_false (by rw [hordinal]; exact hbehind)
        rw [hready, hfirst]
        exact ⟨rfl, rfl⟩
    rw [hstill.1] at hafter
    refine h.of_still hs (by rw [hafter.self, hr]) (hafter.told.trans (List.append_nil _)) ?_
    rw [(hs.lists _).count_permits, passes?, hr, Option.any_some, hstill.2]
    rfl

theorem perform_self (h : Alone n s l) (hs : s.Reachable) (hl : l.Reachable)
    (hm : m.target? = some n)
    (hrank : ∀ qos, m ≠ .reprioritize n qos) (hwaits : m = .advance n → s.waits n = false)
    (hserved : (s.perform m).isServed n = true) :
    Alone n (s.perform m) (l.perform (m.renumber 0)) := by
  have hm' : (m.renumber 0).target? = some 0 := Move.target?_renumber hm
  have hne : m.renumber 0 ≠ .stop := by
    intro hstop
    rw [hstop] at hm'
    cases hm'
  have hsize : (l.perform (m.renumber 0)).requests.size ≤ 1 := by
    rw [hl.size_perform]
    cases m <;> first | exact h.size | cases hm
  have hpermits : (l.perform (m.renumber 0)).permits.count 0 = (s.perform m).permits.count n := by
    have hopens : (m.renumber 0).opens? = some 0 ↔ m.opens? = some n := by
      cases m <;> simp_all [Move.renumber, Move.opens?, Move.target?]
    have hpasses : l.passes? (m.renumber 0) = some 0 ↔ s.passes? m = some n := by
      cases m with
      | advance k =>
        cases hm
        simp only [Move.renumber, passes?, h.isGated]
        split <;> simp
      | _ => simp [Move.renumber, passes?]
    rw [(hl.lists _).count_permits, (hs.lists _).count_permits, h.permits,
      if_congr hopens rfl rfl, if_congr hpasses rfl rfl]
  cases hr : s.requests[n]? with
  | none =>
    have hmissing : l.requests[0]? = none := by rw [h.request, hr, Option.map_none]
    obtain ⟨hrequests, hjournal⟩ := perform_of_missing hm hr
    obtain ⟨hrequests', hjournal'⟩ := perform_of_missing hm' hmissing
    refine h.of_both hs hl hne hsize ?_ ?_ hpermits
    · rw [hrequests, hrequests', h.request]
    · rw [history_congr hjournal, history_congr hjournal', h.history]
  | some r =>
    have halone : l.requests[0]? = some r.alone := by rw [h.request, hr, Option.map_some]
    have hafter := hs.affects hm hr
    have hafter' := hl.affects hm' halone
    have hrefused := isServed_iff.mp hserved _ hafter.self
    have hsame := h.perform_eq hs hl hm hr
      (fun k qos hk ↦ by cases hk; cases hm; exact hrank qos rfl) hwaits hrefused
    rw [perform_renumber_move, hsame] at hafter'
    refine h.of_both hs hl hne hsize ?_ ?_ hpermits
    · rw [hafter'.self, hafter.self, Option.map_some]
    · rw [hafter'.told, hafter.told, h.history, List.map_append]

theorem perform_arrive (h : Alone n s l) (hs : s.Reachable) (hl : l.Reachable)
    (hn : s.requests.size = n) (exchange : σ) (program : Program) :
    Alone n (s.perform (.arrive exchange program)) (l.perform (.arrive exchange program)) := by
  have hmissing : s.requests[n]? = none := Array.getElem?_eq_none (Nat.le_of_eq hn)
  have hempty : l.requests.size = 0 := by
    have hnone : l.requests[0]? = none := by rw [h.request, hmissing, Option.map_none]
    exact Nat.le_zero.mp (Array.getElem?_eq_none_iff.mp hnone)
  have hnew := (hs.arrival exchange program).1
  have hnew' := (hl.arrival exchange program).1
  rw [hn] at hnew
  rw [hempty, h.hooks, h.config] at hnew'
  refine h.of_both hs hl (fun h ↦ nomatch h) ?_ ?_ h.history h.permits
  · rw [hl.size_perform, hempty]
    exact Nat.le_refl _
  · exact hnew'.trans (congrArg (Option.map Request.alone) hnew).symm

/-- A move about others is nothing for the request alone. If it was waiting it may have got a slot,
which it had alone all the time. -/
theorem perform_other (h : Alone n s l) (hs : s.Reachable) (hm : m.target? ≠ some n)
    (harrives : m.isArrival = true → s.requests.size ≠ n)
    (hserved : (s.perform m).isServed n = true) : Alone n (s.perform m) l := by
  have hpermits : (s.perform m).permits.count n = s.permits.count n := by
    have hopens : m.opens? ≠ some n := by
      cases m <;> simp_all [Move.opens?, Move.target?]
    have hpasses : s.passes? m ≠ some n := by
      cases m <;> simp_all [passes?, Move.target?]
    rw [(hs.lists m).count_permits, if_neg hopens, if_neg hpasses]
    rfl
  cases hr : s.requests[n]? with
  | none =>
    obtain ⟨hstill, htold⟩ := hs.missing_perform hr harrives
    exact h.of_still hs (by rw [hstill, hr]) htold hpermits
  | some r =>
    have hbefore := isServed_iff.mp (hs.isServed_of_perform hserved) r hr
    have hdrained : r.stage ≠ .drained := by
      intro hdrained
      rw [hdrained] at hbefore
      cases hbefore
    obtain ⟨r', hr', hrestaged, htold⟩ := hs.bystander hm hr hdrained
    refine h.of_still hs ?_ htold hpermits
    rw [hr', hr, Option.map_some, Option.map_some]
    rcases hrestaged with rfl | ⟨hqueued, stage, hpass, rfl⟩
    · rfl
    · rw [hqueued] at hpass
      cases hpass with
      | promoted =>
        rw [Request.alone, Request.alone, hqueued]
        rfl
      | dismissed => cases isServed_iff.mp hserved _ hr'

theorem perform (h : Alone n s l) (hs : s.Reachable) (hl : l.Reachable)
    (hrank : ∀ qos, m ≠ .reprioritize n qos)
    (hserved : (s.perform m).isServed n = true) :
    Alone n (s.perform m) (l.performAll (s.aloneMove? n m).toList) := by
  rw [aloneMove?]
  by_cases hm : m.target? = some n
  · rw [if_pos hm]
    split
    next hwaits =>
      rw [Bool.and_eq_true, Move.isOwn_iff] at hwaits
      obtain ⟨rfl, hwaits⟩ := hwaits
      exact h.perform_waits hs hwaits
    next hwaits =>
      refine h.perform_self hs hl hm hrank ?_ hserved
      rintro rfl
      rw [Move.isOwn_iff.mpr rfl, Bool.true_and] at hwaits
      exact Bool.eq_false_iff.mpr hwaits
  · rw [if_neg hm]
    split
    next harrives =>
      rw [Bool.and_eq_true, decide_eq_true_eq] at harrives
      obtain ⟨harrival, hsize⟩ := harrives
      cases m with
      | arrive exchange program => exact h.perform_arrive hs hl hsize exchange program
      | _ => cases harrival
    next harrives =>
      refine h.perform_other hs hm ?_ hserved
      intro harrival hsize
      exact harrives (by rw [harrival, decide_eq_true hsize]; rfl)

/-- A run keeps the two related, if the request is not refused. -/
theorem performAll (h : Alone n s l) (hs : s.Reachable) (hl : l.Reachable)
    (hrank : ∀ qos, .reprioritize n qos ∉ moves)
    (hserved : (s.performAll moves).isServed n = true) :
    Alone n (s.performAll moves) (l.performAll (aloneMoves n s moves)) := by
  induction moves generalizing s l with
  | nil => exact h
  | cons m moves ih =>
    have hnow := h.perform hs hl (fun qos hm ↦ hrank qos (hm ▸ List.mem_cons_self))
      ((hs.move m).isServed_of_performAll hserved)
    rw [aloneMoves, performAll_append]
    exact ih hnow (hs.move m) (hl.performAll _)
      (fun qos hmem ↦ hrank qos (List.mem_cons_of_mem m hmem)) hserved

end Alone

variable [Exchange σ]

/-! ## After every run -/

/-- The move comes from outside: the transport does something, or a gate is opened. -/
def Move.isEvent : Move σ → Bool
  | .deliver .. | .wake _ | .forget _ | .openGate _ => true
  | _ => false

/-- The events of the request with the ordinal `n` among some moves. -/
def eventsOf (n : Nat) (moves : List (Move σ)) : List (Move σ) :=
  moves.filter fun m ↦ m.isEvent && m.target? = some n

omit [Exchange σ] in
@[simp] theorem eventsOf_append (n : Nat) (moves more : List (Move σ)) :
    eventsOf n (moves ++ more) = eventsOf n moves ++ eventsOf n more :=
  List.filter_append _ _

omit [Exchange σ] in
theorem eventsOf_aloneMove? (s : Scheduler σ) (n : Nat) (m : Move σ) :
    eventsOf 0 (s.aloneMove? n m).toList = (eventsOf n [m]).map (Move.renumber 0) := by
  have hsame (hm : m.target? = some n) :
      eventsOf 0 [m.renumber 0] = (eventsOf n [m]).map (Move.renumber 0) := by
    cases m <;> first
      | cases hm; simp [eventsOf, Move.renumber, Move.isEvent, Move.target?]
      | cases hm
  rw [aloneMove?]
  by_cases hm : m.target? = some n
  · rw [if_pos hm, ← hsame hm]
    split
    next hwaits =>
      rw [Bool.and_eq_true, Move.isOwn_iff] at hwaits
      rw [hwaits.1]
      rfl
    · rfl
  · have hnone : eventsOf n [m] = [] := by simp [eventsOf, hm]
    rw [if_neg hm, hnone]
    split
    next harrives =>
      cases m with
      | arrive exchange program => rfl
      | _ => cases (Bool.and_eq_true_iff.mp harrives).1
    · rfl

theorem eventsOf_aloneMoves (s : Scheduler σ) (n : Nat) (moves : List (Move σ)) :
    eventsOf 0 (aloneMoves n s moves) = (eventsOf n moves).map (Move.renumber 0) := by
  induction moves generalizing s with
  | nil => rfl
  | cons m moves ih =>
    rw [aloneMoves, eventsOf_append, ih, eventsOf_aloneMove?, ← List.map_append, ← eventsOf_append]
    rfl

/-- What the request with the ordinal `n` is and did after a run from `s` is what it is and did
after its moves alone. -/
structure DoneAlone (n : Nat) (s : Scheduler σ) (moves : List (Move σ)) (r : Request σ)
    (l : Scheduler σ) : Prop where
  /-- Alone it has the same events in the same order. -/
  events : eventsOf 0 (aloneMoves n s moves) = (eventsOf n moves).map (Move.renumber 0)
  /-- Nobody else is there, and it has come to the same, but for waiting for a slot: to the same
  place in its program, with the same dossier, the same exchange and the same inboxes. -/
  request : (l.performAll (aloneMoves n s moves)).requests = #[r.alone]
  /-- The same was told of it, in the same order. -/
  told : (l.performAll (aloneMoves n s moves)).history 0 =
    ((s.performAll moves).history n).map (Happening.renumber 0)
  /-- Its transport saw the same calls. -/
  calls : callsOf ((l.performAll (aloneMoves n s moves)).history 0) =
    callsOf ((s.performAll moves).history n)
  /-- Its program left the same notes. -/
  notes : notesOf ((l.performAll (aloneMoves n s moves)).history 0) =
    notesOf ((s.performAll moves).history n)
  /-- The same happened to its cleaners. -/
  cleaners : cleanersOf ((l.performAll (aloneMoves n s moves)).history 0) =
    cleanersOf ((s.performAll moves).history n)

omit [Exchange σ] in
theorem filterMap_renumber {α : Type} {part? : Happening → Option α} {told : List Happening}
    {k : Nat} (hpart : ∀ x : Happening, part? (x.renumber k) = part? x) :
    (told.map (Happening.renumber k)).filterMap part? = told.filterMap part? := by
  rw [List.filterMap_map]
  exact congrArg (told.filterMap ·) (funext hpart)

/-- After every run, what a request that was not refused is and did is what it would be and would
have done alone, on a scheduler of its own with the same settings, unless somebody moved it to
another class while it waited. -/
theorem performAll_alone {config : Config} {hooks : Hooks} (h : start? config hooks = .ok s)
    (moves : List (Move σ)) (hr : (s.performAll moves).requests[n]? = some r)
    (hserved : r.stage.refusedFor? = none) (hrank : ∀ qos, .reprioritize n qos ∉ moves) :
    ∃ l : Scheduler σ, start? config (hooks.only n) = .ok l ∧ DoneAlone n s moves r l := by
  have hstart := reachable_of_start? h
  obtain ⟨hvalid, rfl⟩ := start?_eq_ok h
  have halone : Alone n (new config hooks) (new config (hooks.only n) : Scheduler σ) := {
    hooks := rfl
    config := rfl
    workers := hvalid.workers
    running := rfl
    size := Nat.zero_le 1
    request := rfl
    history := rfl
    permits := rfl }
  have hdone := halone.performAll hstart (.start hvalid _) hrank
    (isServed_iff.mpr fun q hq ↦ by cases hr.symm.trans hq; exact hserved)
  have hself := hdone.request
  rw [hr, Option.map_some] at hself
  refine ⟨_, start?_of_valid hvalid, {
    events := eventsOf_aloneMoves _ n moves
    request := ?_, told := hdone.history, calls := ?_, notes := ?_, cleaners := ?_ }⟩
  · refine Array.ext_getElem? fun k ↦ ?_
    cases k with
    | zero => exact hself
    | succ k =>
      rw [Array.getElem?_eq_none (hdone.size.trans (Nat.le_add_left 1 k))]
      rfl
  all_goals
    rw [hdone.history]
    refine filterMap_renumber fun x ↦ ?_
    cases x <;> rfl

/-- Two requests arrive at two workers and run; the first breaks off before the second leaves a
note. -/
def besideFailure : List (Move Scripted) :=
  [.arrive (.new default) (.raise .unlabelled), .advance 0,
    .arrive (.new default) (.suspend (.act (.note "done"))), .advance 1,
    .advance 0, .advance 1, .advance 0, .advance 1]

/-- Alone the second leaves the same note. -/
theorem performAll_alone_besideFailure :
    ∃ s l : Scheduler Scripted, start? (.sized 2) (.plain .normal) = .ok s ∧
      start? (.sized 2) ((Hooks.plain .normal).only 1) = .ok l ∧
      (l.performAll (aloneMoves 1 s besideFailure)).requests.size = 1 ∧
      notesOf ((l.performAll (aloneMoves 1 s besideFailure)).history 0) = ["done"] := by
  have hstart : start? (.sized 2) (.plain .normal) =
      .ok (new (.sized 2) (.plain .normal) : Scheduler Scripted) := rfl
  have hserved : ((new (.sized 2) (.plain .normal) : Scheduler Scripted).performAll
      besideFailure).requests[1]?.map (·.stage.refusedFor?) = some none := by cbv
  have hnotes : notesOf (((new (.sized 2) (.plain .normal) : Scheduler Scripted).performAll
      besideFailure).history 1) = ["done"] := by cbv
  obtain ⟨r, hr, hnone⟩ := Option.map_eq_some_iff.mp hserved
  obtain ⟨l, hl, hdone⟩ := performAll_alone hstart besideFailure hr hnone (by simp [besideFailure])
  refine ⟨_, l, hstart, hl, ?_, hdone.notes.trans hnotes⟩
  rw [hdone.request]
  rfl

end Scheduler

end Turnstile
