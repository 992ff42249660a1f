import Turnstile.Proofs.Cleanup.Operations
import Turnstile.Proofs.Request.Finalization

/-!
# Cleaners that invoke each other

What holds of cleaners whatever is done with them from outside, where they are registered, invoked
and swept in any order, and whatever they do themselves: note something, break off, or invoke any
cleaner, older or newer, started before or running right now.

The history tells of each cleaner that does not wait exactly once, and what a handle shows and what
an invocation says follow from that, at every moment, that is, also while a cleaner runs inside
others that run (`Cleanup.Sound`). Which actions the cleaners have follows from the registrations
alone (`Cleanup.Registers`), so the sweep, which goes by names, goes through the actions registered
from the newest to the oldest. What a sensor hears of the cleaners it hears when a request sweeps
them (`Cleanup.Reports`), and after that nothing is left to hear (`Cleanup.Settled`).
-/

namespace Turnstile

namespace Cleanup

variable {N : Type} {c : Cleanup N} {id : Nat}

/-! ## One moment -/

/-- What is so of the cleaners at any moment. -/
structure Sound (c : Cleanup N) : Prop where
  /-- No cleaner was started twice. -/
  once : (starts c.history.toList).Nodup
  /-- A handle shows whether its cleaner was started. -/
  shown (id : Nat) : c.isStarted id = true ↔ id ∈ starts c.history.toList
  /-- A cleaner is told of as it is started, for the first time, and its handle shows it before it
  does anything. -/
  begins {id : Nat} {action : Cleaner N} {c₁ : Cleanup N} :
    c.start id = (some action, c₁) →
      starts c₁.history.toList = starts c.history.toList ++ [id] ∧
        id ∉ starts c.history.toList ∧ c₁.isStarted id = true
  /-- A cleaner that was registered is refused exactly when it was started before, -/
  refuses {id : Nat} : id < c.size →
    ((c.invoke id).1 = .ok false ↔ id ∈ starts c.history.toList)
  /-- and then nothing happens. -/
  stays {id : Nat} : id ∈ starts c.history.toList → c.invoke id = (.ok false, c)
  /-- An invocation that starts a cleaner follows its action, and is over when this is. -/
  follows {id : Nat} {action : Cleaner N} {c₁ : Cleanup N} : c.start id = (some action, c₁) →
    c.invoke id = ((c₁.follow action).1.map fun _ ↦ true, (c₁.follow action).2)
  /-- It says that it started the cleaner exactly when it did and the cleaner ended well. -/
  accepts {id : Nat} : (c.invoke id).1 = .ok true ↔
    ∃ action c₁, c.start id = (some action, c₁) ∧ (c₁.follow action).1 = .ok ()
  /-- It breaks off exactly when it started the cleaner and the cleaner broke off. -/
  breaksOff {id : Nat} (fault : Fault) : (c.invoke id).1 = .error fault ↔
    ∃ action c₁, c.start id = (some action, c₁) ∧ (c₁.follow action).1 = .error fault

theorem Tracked.isStarted_iff (h : c.Tracked) (id : Nat) :
    c.isStarted id = true ↔ id ∈ starts c.history.toList := by
  rw [h.mem_starts_iff, isStarted, Bool.and_eq_true, decide_eq_true_iff, Bool.not_eq_true',
    Bool.eq_false_iff, ne_eq, Std.TreeMap.contains_iff_mem]

theorem invoke_fst_iff (result : Except Fault Unit) :
    (c.invoke id).1 = result.map (fun _ ↦ true) ↔
      ∃ action c₁, c.start id = (some action, c₁) ∧ (c₁.follow action).1 = result := by
  by_cases hmem : id ∈ c.waiting
  · obtain ⟨action, hstart⟩ := exists_start hmem
    rw [invoke_of_start hstart, hstart]
    cases h : (((c.without id).log (.started id)).follow action).1 <;> cases result <;>
      simp [h, Except.map]
  · rw [invoke_of_notWaiting hmem]
    refine ⟨fun h ↦ ?_, fun ⟨action, c₁, hstart, _⟩ ↦ absurd (mem_of_start hstart) hmem⟩
    cases result <;> cases h

theorem Tracked.sound (h : c.Tracked) : c.Sound where
  once := h.nodup
  shown := h.isStarted_iff
  begins {id action c₁} hstart := by
    have hnot : id ∉ starts c.history.toList := fun hmem ↦
      (h.mem_starts_iff.mp hmem).2 (mem_of_start hstart)
    have htold : starts c₁.history.toList = starts c.history.toList ++ [id] := by
      obtain ⟨-, rfl⟩ := start_eq_some_iff.mp hstart
      rw [log, Journal.toList_push, starts_append]
      rfl
    obtain ⟨_, hran⟩ := exists_ran_start hstart
    refine ⟨htold, hnot, ((h.ran hran).isStarted_iff id).mpr ?_⟩
    rw [htold]
    exact List.mem_append_right _ (List.mem_singleton_self id)
  refuses hid := by
    rw [invoke_eq_false_iff, h.mem_starts_iff]
    exact (and_iff_right hid).symm
  stays hmem := invoke_of_notWaiting (h.mem_starts_iff.mp hmem).2
  follows := invoke_of_start
  accepts := invoke_fst_iff (.ok ())
  breaksOff fault := invoke_fst_iff (.error fault)

/-! ## What a sensor hears -/

/-- When a request sweeps the cleaners, the sensor hears of these faults of cleaners, in order, and
of no others. -/
def Reports (c : Cleanup String) (faults : List Fault) : Prop :=
  ∀ (σ : Type) (hooks : Hooks) (r : Request σ), r.dossier.cleaners = c →
    (Request.sweep hooks r).2.filter Happening.reportsCleanup =
      faults.map fun fault ↦
        Request.report hooks (.cleanupFailed r.ordinal (fault.messageWith hooks.kindName))

theorem Swept.reports {c : Cleanup String} {rounds : List (Round String)} (h : c.Swept rounds) :
    c.Reports (rounds.filterMap Round.fault?) := by
  rintro σ hooks r rfl
  have htold : (Request.sweep hooks r).2 =
      (eventsOf rounds).flatMap (Request.tellSwept hooks r.ordinal) :=
    congrArg (List.flatMap (Request.tellSwept hooks r.ordinal)) (Request.since_of_append h.history)
  rw [htold, (Request.filter_tellSwept hooks h.silent r.ordinal).2, List.map_filterMap]

theorem reports_of_swept {c : Cleanup String} (h : c.swept = true) : c.Reports [] := by
  rintro σ hooks r rfl
  rw [Request.sweep, sweep_of_swept h]
  dsimp only
  rw [Journal.since_self]
  rfl

/-- The cleaners of `c` are settled in a later state. -/
structure Settled (c later : Cleanup String) : Prop where
  /-- Each was started once, -/
  once : ∀ id < c.size, (starts later.history.toList).count id = 1
  /-- a sweep does nothing any more, -/
  sweep : later.sweep = (0, later)
  /-- and the sensor hears of nothing. -/
  reports : later.Reports []

/-- What is so of cleaners whatever is done with them, where `actions` were registered so far. -/
structure Kept (c : Cleanup String) (actions : List (Cleaner String)) : Prop where
  /-- At any moment of any operation on them they are as they should be, -/
  sound {op : Op String} {c' : Cleanup String} : op.Within c c' → c'.Sound
  /-- and they are those registered: whoever was not started is started with the action of its
  place. -/
  registers {op : Op String} {c' : Cleanup String} : op.Within c c' → c'.Registers actions
  /-- The first sweep starts those that were not started before, in rounds, and the sensor hears of
  the faults of these rounds. After it all are settled, whatever else is done. -/
  swept : c.swept = false → ∃ rounds, c.Swept rounds ∧ c.Reports (rounds.filterMap Round.fault?) ∧
    ∀ later, c.Settled (c.sweep.2.applyAll later)

theorem Tracked.settled {c : Cleanup String} {rounds : List (Round String)} (h : c.Tracked)
    (hrounds : c.Swept rounds) (later : List (Op String)) :
    c.Settled (c.sweep.2.applyAll later) := by
  have hswept : (c.sweep.2.applyAll later).swept = true :=
    (swept_applyAll _ later).mpr (.inl (swept_sweep c))
  refine ⟨fun id hid ↦ ?_, sweep_of_swept hswept, reports_of_swept hswept⟩
  -- started once by now, and not twice in the end
  obtain ⟨told, htold⟩ := history_applyAll c.sweep.2 later
  have hnodup : (starts (c.sweep.2.applyAll later).history.toList).Nodup :=
    ((stable_tracked.sweep h).applyAll later).nodup
  have hle := List.nodup_iff_count_le_one.mp hnodup id
  have hone := hrounds.once id hid
  rw [← htold, starts_append, List.count_append] at hle ⊢
  omega

/-- The newest of three cleaners invokes the oldest, which breaks off, so it is the newest that the
sweep finds broken; the one between invokes itself, which is refused. -/
example :
    let c := applyAll empty [.register (.fail (.text "disk gone")),
      .register (.invoke 1 fun started ↦ .note (toString started) .done),
      .register (.invoke 0 fun _ ↦ .done)]
    c.sweep.1 = 1 ∧ c.sweep.2.history.toList =
      [.started 2, .started 0, .failed 2 (.text "disk gone"), .started 1, .note "false"] := by
  decide

end Cleanup

end Turnstile
