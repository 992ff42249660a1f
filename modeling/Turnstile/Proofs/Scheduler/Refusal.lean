import Turnstile.Proofs.Scheduler.Finalization

/-!
# Requests that were refused

What is told of a refused request, carried over to the runs of a scheduler. A request that had
already run may be refused as well: when it asks for a slot again with its body and gets none, or
when the scheduler is stopped while it waits. The cleaners that it registered before are started
then, unless its exchange breaks off when it is refused.
-/

namespace Turnstile

namespace Scheduler

open Cleanup (eventsOf starts starts_append)
open Request (Refused cleanersOf cleanersOf_append)

variable {σ : Type} [Exchange σ] {s : Scheduler σ} {n : Nat} {r : Request σ}

/-- After every run, of every request that was refused: its sensor and its exchange heard of the
refusal, in this order and once, and then came its cleaners, from the newest to the oldest of those
that still waited. They are those that the operations carried out for it registered. Each of them
has been started once exactly if its exchange took the refusal, or none waited; and no way to end
the request does anything any more. -/
theorem performAll_refused {config : Config} {hooks : Hooks} (h : start? config hooks = .ok s)
    (moves : List (Move σ)) (hr : (s.performAll moves).requests[n]? = some r) {reason : Refusal}
    (hgone : r.stage = .gone (.refused reason)) :
    r.ordinal = n ∧
      (∃ early rounds fault?,
        Refused hooks reason r ((s.performAll moves).history n) (s.executed n moves) early rounds
          fault? ∧
        ((∀ id < r.dossier.cleaners.size,
            (starts (cleanersOf ((s.performAll moves).history n))).count id = 1) ↔
          fault? = none ∨ ∀ id, id ∉ (Cleanup.after (s.executed n moves)).waiting)) ∧
      ∀ ends, r.endAll hooks ends = (r, []) := by
  have hstart := reachable_of_start? h
  obtain ⟨-, rfl⟩ := start?_eq_ok h
  have hrefused := hstart.of_gone
    (P := fun r told ops ↦ r.closed = true ∧ ∃ early rounds fault?,
      Refused hooks reason r told ops early rounds fault?)
    (n := n) (by simp [new])
    (fun {r _ _} _ _ _ hfinished ↦ by
      cases hend : (Request.finish hooks r).1 with
      | none => cases hfinished.trans (congrArg Ending.ofFinish hend)
      | some took => cases took <;> cases hfinished.trans (congrArg Ending.ofFinish hend))
    (fun {r told _ other} hchronicle hopen hcleaners hending ↦ by
      cases hending
      obtain ⟨rounds, hrefused⟩ := hchronicle.refused hopen hcleaners
      exact ⟨Request.closed_refuse hooks r reason, told, rounds, _, hrefused⟩)
    (fun {r r' told ops} ⟨hclosed, early, rounds, fault?, hrefused⟩ hdossier hordinal hsame ↦
      ⟨hsame.trans hclosed, early, rounds, fault?, hrefused.congr hdossier hordinal⟩)
    moves hr hgone
  obtain ⟨hclosed, early, rounds, fault?, hrefused⟩ := hrefused
  exact ⟨((hstart.performAll moves).chronicle hr).2.1,
    ⟨early, rounds, fault?, hrefused, hrefused.all_started_iff⟩,
    Request.endAll_of_closed hclosed⟩

theorem advance_refusing (hs : s.Numbered) (hr : s.requests[n]? = some r) {reason : Refusal}
    {admitted : Bool} (hstage : r.stage = .refusing reason admitted) :
    (s.perform (.advance n)).requests[n]? =
        some { (Request.refuse s.hooks r reason).1 with stage := .gone (.refused reason) } ∧
      (s.perform (.advance n)).history n =
        s.history n ++ (Request.refuse s.hooks r reason).2 := by
  have hordinal : (Request.refuse s.hooks r reason).1.ordinal = n :=
    (Request.refuse_ordinal s.hooks r reason).trans (hs.ordinal hr)
  rw [perform, advance, hr]
  dsimp only
  rw [advanceRequest, hstage]
  constructor
  · refine (put_getElem? ?_).trans (if_pos hordinal)
    exact hordinal ▸ lt_size hr
  · exact history_absorb.trans (congrArg (s.history n ++ ·) (if_pos hordinal))

/-- A program that registers two cleaners, the second of which breaks off, and reads the body. -/
def cleansAndReads : Program :=
  .flatMap (.suspend (.addCleaner .done)) fun _ ↦
    .flatMap (.suspend (.addCleaner (.fail .unlabelled))) fun _ ↦ .suspend (.readBody 4)

/-- An exchange whose body comes at once, and that ends as told when it is refused. -/
def bodyAtOnce (rejectionFault : Option Fault) : Scripted :=
  { Scripted.new default with bodyEvents := [.allRead], rejectionFault }

/-- A request with that program gets the slot, the scheduler is stopped, and the request moves on
until it has its body, asks for a slot again, and is about to be refused. -/
def turnedAway (exchange : Scripted) : List (Move Scripted) :=
  [.arrive exchange cleansAndReads, .advance 0, .stop] ++ List.replicate 8 (.advance 0)

/-- Such a request is refused after it has run, and then the cleaners that it registered are
started, the newest first, and that this one broke off is reported once. -/
theorem performAll_refused_turnedAway :
    start? (.sized 1) (.plain .normal) = .ok oneWorker ∧
      oneWorker.executed 0 (turnedAway (bodyAtOnce none) ++ [.advance 0]) =
        [.addCleaner .done, .addCleaner (.fail .unlabelled), .readBody 4] ∧
      ∃ r early rounds fault?,
        (oneWorker.performAll (turnedAway (bodyAtOnce none) ++ [.advance 0])).requests[0]? =
          some r ∧
        r.stage = .gone (.refused .shutdown) ∧
        Refused (.plain .normal) .shutdown r
          ((oneWorker.performAll (turnedAway (bodyAtOnce none) ++ [.advance 0])).history 0)
          [.addCleaner .done, .addCleaner (.fail .unlabelled), .readBody 4] early rounds fault? ∧
        starts (cleanersOf ((oneWorker.performAll
          (turnedAway (bodyAtOnce none) ++ [.advance 0])).history 0)) = [1, 0] ∧
        ((oneWorker.performAll (turnedAway (bodyAtOnce none) ++ [.advance 0])).history 0).filter
          Happening.reportsCleanup =
            [.sensed (.cleanupFailed 0 "non-string panic payload") none] := by
  have hstart : start? (.sized 1) (.plain .normal) = .ok oneWorker := rfl
  have hoperations : oneWorker.executed 0 (turnedAway (bodyAtOnce none)) =
      [.addCleaner .done, .addCleaner (.fail .unlabelled), .readBody 4] := by cbv
  have hturned : ((oneWorker.performAll (turnedAway (bodyAtOnce none))).requests[0]?.map fun r ↦
      (r.stage, r.closed, r.exchange.rejectionFault)) =
        some (.refusing .shutdown true, false, none) := by cbv
  obtain ⟨r, hr, hstage⟩ := Option.map_eq_some_iff.mp hturned
  simp only [Prod.mk.injEq] at hstage
  obtain ⟨hstage, hopen, htakes⟩ := hstage
  have hexecuted : oneWorker.executed 0 (turnedAway (bodyAtOnce none) ++ [.advance 0]) =
      [.addCleaner .done, .addCleaner (.fail .unlabelled), .readBody 4] := by
    rw [executed_append, hoperations, executed, executes?_of_ne_running hr (by simp [hstage])]
    rfl
  have hreachable := (reachable_of_start? hstart).performAll (turnedAway (bodyAtOnce none))
  obtain ⟨hr', hhistory⟩ := advance_refusing hreachable.sound.numbered hr hstage
  have hlast : oneWorker.performAll (turnedAway (bodyAtOnce none) ++ [.advance 0]) =
      (oneWorker.performAll (turnedAway (bodyAtOnce none))).perform (.advance 0) :=
    performAll_append _ _ [_]
  obtain ⟨hordinal, ⟨early, rounds, fault?, hrefused, -⟩, -⟩ := performAll_refused hstart
    (turnedAway (bodyAtOnce none) ++ [.advance 0]) (by rw [hlast]; exact hr') rfl
  rw [hexecuted] at hrefused
  -- the exchange took the refusal, so the cleaners have been swept and their state is known
  have htaken : fault? = none := by
    obtain ⟨-, -, hchronicle⟩ := hreachable.chronicle hr
    have hends := hrefused.ends
    rw [hlast, hhistory, Request.refuse_of_taken hopen .shutdown htakes, List.filter_append,
      (hchronicle.opened hopen).2.filter.1] at hends
    cases (List.cons.inj hends).1
    rfl
  have hevents : eventsOf rounds = [.started 1, .failed 1 .unlabelled, .started 0] := by
    have hhistory := (hrefused.swept htaken).sweeps.history
    rw [(hrefused.swept htaken).eq] at hhistory
    exact hhistory.symm.trans (by decide)
  refine ⟨hstart, hexecuted, _, early, rounds, fault?, by rw [hlast]; exact hr', rfl, hrefused,
    ?_, ?_⟩
  · rw [hrefused.cleanersOf_told, hevents]
    decide
  · rw [hrefused.story, hevents, hordinal, List.filter_append, List.filter_append,
      hrefused.opening.quiet.filter.2]
    rfl

/-- If the exchange breaks off, none of the two cleaners is started, and none will be. -/
theorem performAll_refused_broken :
    ∃ s : Scheduler Scripted, start? (.sized 1) (.plain .normal) = .ok s ∧
      ∃ r, (s.performAll (turnedAway (bodyAtOnce (some .unlabelled)) ++
          [.advance 0])).requests[0]? = some r ∧
        r.stage = .gone (.refused .shutdown) ∧ r.dossier.cleaners.size = 2 ∧
        starts (cleanersOf ((s.performAll (turnedAway (bodyAtOnce (some .unlabelled)) ++
          [.advance 0])).history 0)) = [] ∧
        ∀ ends, r.endAll (.plain .normal) ends = (r, []) := by
  refine ⟨.new (.sized 1) (.plain .normal), rfl, ?_⟩
  have hstart : start? (.sized 1) (.plain .normal) =
    .ok (.new (.sized 1) (.plain .normal) : Scheduler Scripted) := rfl
  have hturned : (((Scheduler.new (.sized 1) (.plain .normal)).performAll
      (turnedAway (bodyAtOnce (some .unlabelled)))).requests[0]?.map fun r ↦
        (r.stage, r.closed, r.dossier.cleaners.size, r.exchange.rejectionFault)) =
      some (.refusing .shutdown true, false, 2, some .unlabelled) := by cbv
  have htold : starts (cleanersOf (((Scheduler.new (.sized 1) (.plain .normal)).performAll
      (turnedAway (bodyAtOnce (some .unlabelled)))).history 0)) = [] := by cbv
  obtain ⟨r, hr, hstage⟩ := Option.map_eq_some_iff.mp hturned
  simp only [Prod.mk.injEq] at hstage
  obtain ⟨hstage, hopen, hsize, hfault⟩ := hstage
  obtain ⟨hr', hhistory⟩ := advance_refusing ((reachable_of_start? hstart).performAll
    (turnedAway (bodyAtOnce (some .unlabelled)))).sound.numbered hr hstage
  have hlast := performAll_append (Scheduler.new (.sized 1) (.plain .normal))
    (turnedAway (bodyAtOnce (some .unlabelled))) [.advance 0]
  rw [((reachable_of_start? hstart).frame_performAll _).2,
    Request.refuse_of_fault hopen .shutdown hfault] at hr' hhistory
  rw [hlast]
  refine ⟨_, hr', rfl, hsize, ?_, Request.endAll_of_closed rfl⟩
  refine (congrArg (fun told ↦ starts (cleanersOf told)) hhistory).trans ?_
  rw [cleanersOf_append, starts_append, htold]
  rfl

end Scheduler

end Turnstile
