import Turnstile.Exchange.Scripted
import Turnstile.Proofs.Request.Refusal
import Turnstile.Proofs.Scheduler.Admission
import Turnstile.Proofs.Scheduler.Executed

/-!
# Requests that have left are finalized

The chronicle of one request, carried over to the runs of a scheduler: whatever the moves, and
whatever program, exchange and hooks do, the journal of a request that left after it was answered
tells of every cleaner started once, of one sweep, and of one end.

## Which cleaners these are

The cleaners of a request that is open are what the operations carried out for it so far make of no
cleaners (`Scheduler.Reachable.cleaners_of_open`), by induction on the run: a move carries out an
operation for the request and does to its cleaners what this says, or leaves them alone. A request
leaves with one move and nothing happens to it afterwards (`Scheduler.Reachable.of_gone`), so these
are the cleaners that its last move finds.
-/

namespace Turnstile

namespace Scheduler

open Cleanup (after after_append eventsOf starts)
open Request (cleanersOf)

variable {σ : Type} [Exchange σ] {s : Scheduler σ} {n : Nat} {r r' : Request σ} {m : Move σ}
  {ops : List Operation}

theorem Reachable.chronicle (h : s.Reachable) (hr : s.requests[n]? = some r) :
    r.WellFormed ∧ r.ordinal = n ∧ Request.Chronicle r (s.history n) := by
  obtain ⟨qos, exchange, program, inputs, hrun⟩ := h.run hr
  exact hrun.chronicle

theorem Reachable.cleaners_perform (h : s.Reachable) (hr : s.requests[n]? = some r)
    (hr' : (s.perform m).requests[n]? = some r') (hopen : r'.closed = false) :
    r.closed = false ∧ r'.dossier.cleaners = r.dossier.cleaners.applyAll
      ((s.executes? n m).bind Operation.onCleaners?).toList := by
  obtain ⟨r₁, told, hr₁, -, hstep⟩ := (h.change m).step h.sound hr
  cases hr'.symm.trans hr₁
  obtain ⟨hopen₀, hquiet⟩ := hstep.of_open hopen
  refine ⟨hopen₀, ?_⟩
  by_cases hrunning : r.stage = .running
  · by_cases hm : m = .advance n
    · subst hm
      have hself : r' = ((s.circumstances r).advance r).1 :=
        Option.some.inj (hr'.symm.trans (h.affects (m := .advance n) rfl hr).self)
      rw [Circumstances.advance, hrunning] at hself
      rw [hself, Request.cleaners_turn hrunning, executes?, if_pos rfl, hr, Option.bind_some]
    · rw [executes?_of_ne_advance hm, h.running_other hr hrunning hm hr']
      rfl
  · rw [executes?_of_ne_running hr hrunning, hquiet hrunning]
    rfl

theorem Reachable.cleaners_of_open (h : s.Reachable) (hnone : s.requests[n]? = none)
    (moves : List (Move σ)) (hr : (s.performAll moves).requests[n]? = some r)
    (hopen : r.closed = false) : r.dossier.cleaners = after (s.executed n moves) := by
  induction moves using List.reverseRecOn generalizing r with
  | nil => exact absurd (hnone.symm.trans hr) (by simp)
  | append_singleton moves m ih =>
    have hreachable := h.performAll moves
    rw [performAll_append] at hr
    rw [executed_append, executed, executed, List.append_nil, after_append]
    cases hold : (s.performAll moves).requests[n]? with
    | some r₀ =>
      obtain ⟨hopen₀, hcleaners⟩ := hreachable.cleaners_perform hold hr hopen
      rw [hcleaners, ih hold hopen₀]
    | none =>
      -- the request arrives with this move
      have hle : (s.performAll moves).requests.size ≤ n := Array.getElem?_eq_none_iff.mp hold
      obtain ⟨rfl, exchange, program, harrive⟩ :=
        (hreachable.change m).arrived hreachable.sound hle hr
      have hnew := (hreachable.arrival exchange program).1
      rw [← harrive] at hnew
      cases hr.symm.trans hnew
      rw [h.executed_of_missing hold, executes?_of_missing hold]
      rfl

/-- What is so of a request when it leaves, and concerns nothing but its dossier, its ordinal and
whether it is closed, is so ever after: one move makes it leave, which finds it open, and nothing
happens to it afterwards. -/
theorem Reachable.of_gone (h : s.Reachable) (hnone : s.requests[n]? = none) {ending : Ending}
    {P : Request σ → List Happening → List Operation → Prop}
    (finish : ∀ {r told ops}, Request.Chronicle r told → r.closed = false →
      r.dossier.cleaners = after ops → ending = .ofFinish (Request.finish s.hooks r).1 →
      P { (Request.finish s.hooks r).2.1 with stage := .gone ending }
        (told ++ (Request.finish s.hooks r).2.2) ops)
    (refuse : ∀ {r told ops reason}, Request.Chronicle r told → r.closed = false →
      r.dossier.cleaners = after ops → ending = .refused reason →
      P { (Request.refuse s.hooks r reason).1 with stage := .gone ending }
        (told ++ (Request.refuse s.hooks r reason).2) ops)
    (stay : ∀ {r r' told ops}, P r told ops → r'.dossier = r.dossier → r'.ordinal = r.ordinal →
      r'.closed = r.closed → P r' told ops)
    (moves : List (Move σ)) (hr : (s.performAll moves).requests[n]? = some r)
    (hgone : r.stage = .gone ending) :
    P r ((s.performAll moves).history n) (s.executed n moves) := by
  induction moves using List.reverseRecOn generalizing r with
  | nil => exact absurd (hnone.symm.trans hr) (by simp)
  | append_singleton moves m ih =>
    have hreachable := h.performAll moves
    have hhooks := (h.frame_performAll moves).2
    have hlast : s.performAll (moves ++ [m]) = (s.performAll moves).perform m :=
      performAll_append s moves [m]
    rw [hlast] at hr ⊢
    cases hold : (s.performAll moves).requests[n]? with
    | none =>
      -- a request that has just arrived has not left
      have hle : (s.performAll moves).requests.size ≤ n := Array.getElem?_eq_none_iff.mp hold
      obtain ⟨rfl, exchange, program, harrive⟩ :=
        (hreachable.change m).arrived hreachable.sound hle hr
      have hnew := (hreachable.arrival exchange program).1
      rw [← harrive] at hnew
      cases hr.symm.trans hnew
      cases hgone
    | some r₀ =>
      obtain ⟨hw, -, hchronicle⟩ := hreachable.chronicle hold
      obtain ⟨r', more, hr', hhistory, hstep⟩ := (hreachable.change m).step hreachable.sound hold
      cases hr.symm.trans hr'
      rw [(h.frame_performAll moves).2] at hstep
      -- it does not run when it leaves, nor afterwards, so nothing is carried out
      have hexecuted (hrunning : r₀.stage ≠ .running) :
          s.executed n (moves ++ [m]) = s.executed n moves := by
        rw [executed_append, executed, executed, executes?_of_ne_running hold hrunning]
        exact List.append_nil _
      rw [hhistory]
      rcases hstep.leaves hw hgone with hbefore | ⟨hopen, hrunning, hleaves⟩
      · obtain ⟨rfl, -, hdossier, hclosed, hordinal, -⟩ := hstep.of_gone hbefore
        rw [List.append_nil, hexecuted (by rw [hbefore]; simp)]
        exact stay (ih hold hbefore) hdossier hordinal hclosed
      · rw [hexecuted hrunning]
        have hcleaners := h.cleaners_of_open hnone moves hold hopen
        rcases hleaves with ⟨hending, rfl, rfl⟩ | ⟨reason, hending, rfl, rfl⟩
        · exact finish hchronicle hopen hcleaners hending
        · exact refuse hchronicle hopen hcleaners hending

/-- After every run, of every request that left after it was answered: its cleaners are those that
the operations carried out for it registered, and each of them has been started once, those that
still waited by the sweep, from the newest to the oldest and before its exchange was declared over;
each that broke off in the sweep was reported once with the ordinal of the request; its exchange was
ended once; and no way to end it does anything any more. -/
theorem performAll_finalized {config : Config} {hooks : Hooks} (h : start? config hooks = .ok s)
    (moves : List (Move σ)) (hr : (s.performAll moves).requests[n]? = some r)
    (hgone : r.stage = .gone .completed ∨ r.stage = .gone .broken) :
    r.ordinal = n ∧
      (∃ early rounds fault?, Request.Finalized hooks r ((s.performAll moves).history n)
        (s.executed n moves) early rounds fault?) ∧
      ∀ ends, r.endAll hooks ends = (r, []) := by
  have hstart := reachable_of_start? h
  obtain ⟨-, rfl⟩ := start?_eq_ok h
  obtain ⟨ending, hending, hanswered⟩ : ∃ ending, r.stage = .gone ending ∧
      ∀ reason, ending ≠ .refused reason := by
    rcases hgone with hgone | hgone <;> exact ⟨_, hgone, nofun⟩
  have hfinalized := hstart.of_gone
    (P := fun r told ops ↦ r.closed = true ∧ ∃ early rounds fault?,
      Request.Finalized hooks r told ops early rounds fault?)
    (n := n) (by simp [new])
    (fun {r told ops} hchronicle hopen hcleaners _ ↦
      have ⟨rounds, hfinalized⟩ := hchronicle.finalized hopen hcleaners
      ⟨Request.closed_finish hooks r, told, rounds, _, hfinalized⟩)
    (fun {_ _ _ reason} _ _ _ hrefused ↦ absurd hrefused (hanswered reason))
    (fun {r r' told ops} ⟨hclosed, early, rounds, fault?, hfinalized⟩ hdossier hordinal hsame ↦
      ⟨hsame.trans hclosed, early, rounds, fault?, hfinalized.congr hdossier hordinal⟩)
    moves hr hending
  exact ⟨((hstart.performAll moves).chronicle hr).2.1, hfinalized.2,
    Request.endAll_of_closed hfinalized.1⟩

theorem exists_gone_of_finishing (hs : s.Numbered) (hr : s.requests[n]? = some r)
    (hstage : r.stage = .finishing) :
    ∃ r', (s.perform (.advance n)).requests[n]? = some r' ∧
      (r'.stage = .gone .completed ∨ r'.stage = .gone .broken) := by
  have hordinal : (Request.finish s.hooks r).2.1.ordinal = n :=
    (Request.finish_ordinal s.hooks r).trans (hs.ordinal hr)
  have hending (completed? : Option Bool) :
      Ending.ofFinish completed? = .completed ∨ Ending.ofFinish completed? = .broken := by
    unfold Ending.ofFinish
    split
    · exact .inr rfl
    · exact .inl rfl
  rw [perform, advance, hr]
  dsimp only
  rw [advanceRequest, hstage]
  dsimp only
  refine ⟨_, (put_getElem? ?_).trans (if_pos hordinal), ?_⟩
  · exact hordinal ▸ lt_size hr
  · exact (hending _).imp (congrArg Stage.gone) (congrArg Stage.gone)

/-- A program that registers two cleaners, the second of which breaks off, and ends with a
response. -/
def twoCleaners : Program :=
  .flatMap (.suspend (.addCleaner (.note "first" .done))) fun _ ↦
    .flatMap (.suspend (.addCleaner (.fail .unlabelled))) fun _ ↦ .pure (.response (.empty 204))

/-- A request with that program arrives and gets the slot, the scheduler is stopped, and the request
moves on until it has been answered. -/
def answered : List (Move Scripted) :=
  [.arrive (.new default) twoCleaners, .advance 0, .stop] ++ List.replicate 7 (.advance 0)

/-- What it registers is swept when it leaves: the newest cleaner is started first and reported
once, since it breaks off, and then comes the other one. -/
theorem performAll_finalized_twoCleaners :
    start? (.sized 1) (.plain .normal) = .ok oneWorker ∧
      oneWorker.executed 0 (answered ++ [.advance 0]) =
        [.addCleaner (.note "first" .done), .addCleaner (.fail .unlabelled)] ∧
      ∃ r early rounds fault?,
        (oneWorker.performAll (answered ++ [.advance 0])).requests[0]? = some r ∧
        (r.stage = .gone .completed ∨ r.stage = .gone .broken) ∧
        Request.Finalized (.plain .normal) r
          ((oneWorker.performAll (answered ++ [.advance 0])).history 0)
          [.addCleaner (.note "first" .done), .addCleaner (.fail .unlabelled)] early rounds fault? ∧
        starts (cleanersOf ((oneWorker.performAll (answered ++ [.advance 0])).history 0)) = [1, 0] ∧
        ((oneWorker.performAll (answered ++ [.advance 0])).history 0).filter
          Happening.reportsCleanup =
            [.sensed (.cleanupFailed 0 "non-string panic payload") none] := by
  have hstart : start? (.sized 1) (.plain .normal) = .ok oneWorker := rfl
  have hoperations : oneWorker.executed 0 answered =
      [.addCleaner (.note "first" .done), .addCleaner (.fail .unlabelled)] := by cbv
  have hanswered : (oneWorker.performAll answered).requests[0]?.map Request.stage =
      some .finishing := by cbv
  obtain ⟨r₀, hr₀, hstage⟩ := Option.map_eq_some_iff.mp hanswered
  obtain ⟨r, hr, hgone⟩ := exists_gone_of_finishing
    ((reachable_of_start? hstart).performAll answered).sound.numbered hr₀ hstage
  have hexecuted : oneWorker.executed 0 (answered ++ [.advance 0]) =
      [.addCleaner (.note "first" .done), .addCleaner (.fail .unlabelled)] := by
    rw [executed_append, hoperations, executed, executes?_of_ne_running hr₀ (by simp [hstage])]
    rfl
  have hlast : oneWorker.performAll (answered ++ [.advance 0]) =
      (oneWorker.performAll answered).perform (.advance 0) := performAll_append _ _ [_]
  obtain ⟨hordinal, ⟨early, rounds, fault?, hfinal⟩, -⟩ :=
    performAll_finalized hstart (answered ++ [.advance 0]) (by rw [hlast]; exact hr) hgone
  rw [hexecuted] at hfinal
  -- the state of the cleaners is known, and with it what is told of them
  have hevents : eventsOf rounds =
      [.started 1, .failed 1 .unlabelled, .started 0, .note "first"] := by
    have hhistory := hfinal.swept.sweeps.history
    rw [hfinal.swept.eq] at hhistory
    exact hhistory.symm.trans (by decide)
  refine ⟨hstart, hexecuted, r, early, rounds, fault?, by rw [hlast]; exact hr, hgone, hfinal,
    ?_, ?_⟩
  · rw [hfinal.cleanersOf_told, hfinal.swept.eq]
    decide
  · rw [hfinal.story, hevents, hordinal, List.filter_append, List.filter_append,
      hfinal.opening.quiet.filter.2]
    rfl

end Scheduler

end Turnstile
