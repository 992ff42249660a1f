import Mathlib.Data.List.Nodup
import Turnstile.Proofs.Cleanup.Sweep

/-!
# What is done with cleaners

From outside, cleaners are registered, invoked and swept, in any order (`Cleanup.Op`). An operation
can be looked at while it is under way, inside whatever cleaner runs just then
(`Cleanup.Op.Within`). Whatever is left alone by cleaners that run, by the beginning of the sweep
and by its words on how they ended is so at all these moments (`Cleanup.Stable`). Two things are:
the history tells of each cleaner once, and whoever waits does so with the action that it was
registered with.

## Names

A cleaner is named by its place among those registered. So some operations register as many cleaners
as they have registrations in them, and the action of each is found under its place in their list
(`Cleanup.registered`), whatever was started in the meantime. Together with the history this says
what a start gives at any moment (`Cleanup.Registers`): under a name not started so far the action
registered at this place, and under any other name nothing.
-/

namespace Turnstile

namespace Cleanup

variable {N : Type} {c c' c₁ : Cleanup N} {id k below : Nat} {action : Cleaner N}
  {actions : List (Cleaner N)} {told : List (Event N)} {rounds : List (Round N)}

/-- What is done with the cleaners from outside. -/
inductive Op (N : Type) where
  /-- A cleaner is registered. -/
  | register (action : Cleaner N)
  /-- A cleaner is invoked through its handle. -/
  | invoke (id : Nat)
  /-- The cleaners are swept. -/
  | sweep

/-- What it leads to. -/
def Op.apply (c : Cleanup N) : Op N → Cleanup N
  | .register action => c.register action
  | .invoke id => (c.invoke id).2
  | .sweep => c.sweep.2

/-- What operations lead to, one after the other. -/
def applyAll (c : Cleanup N) (ops : List (Op N)) : Cleanup N := ops.foldl Op.apply c

theorem applyAll_append (c : Cleanup N) (ops more : List (Op N)) :
    c.applyAll (ops ++ more) = (c.applyAll ops).applyAll more := List.foldl_append

/-- The state `c'` comes up while the cleaners below some name are swept, between them or inside
one. -/
inductive WithinSweep : Nat → Cleanup N → Cleanup N → Prop where
  /-- Before the next cleaner. -/
  | now (below : Nat) (c : Cleanup N) : WithinSweep below c c
  /-- Inside it. -/
  | inside {below : Nat} {action : Cleaner N} {c c₁ c' : Cleanup N}
      (hstart : c.start below = (some action, c₁)) (h : Within action c₁ c') :
      WithinSweep (below + 1) c c'
  /-- After it. -/
  | after {below : Nat} {started : Bool} {c c₁ c' : Cleanup N}
      (hinvoke : c.invoke below = (.ok started, c₁)) (h : WithinSweep below c₁ c') :
      WithinSweep (below + 1) c c'
  /-- After it broke off. -/
  | failed {below : Nat} {fault : Fault} {c c₁ c' : Cleanup N}
      (hinvoke : c.invoke below = (.error fault, c₁))
      (h : WithinSweep below (c₁.log (.failed below fault)) c') :
      WithinSweep (below + 1) c c'

/-- The state `c'` comes up during an operation on `c`. -/
inductive Op.Within : Op N → Cleanup N → Cleanup N → Prop where
  /-- Before it. -/
  | now (op : Op N) (c : Cleanup N) : Op.Within op c c
  /-- Inside the cleaner that is invoked. -/
  | invoke {id : Nat} {action : Cleaner N} {c c₁ c' : Cleanup N}
      (hstart : c.start id = (some action, c₁)) (h : Cleanup.Within action c₁ c') :
      Op.Within (.invoke id) c c'
  /-- Inside the first sweep. -/
  | sweep {c c' : Cleanup N} (hswept : c.swept = false)
      (h : WithinSweep c.size { c with swept := true } c') : Op.Within .sweep c c'

/-- The action that an operation registers, if it registers one. -/
def Op.registers? : Op N → Option (Cleaner N)
  | .register action => some action
  | .invoke _ | .sweep => none

/-- The actions that some operations register, in order. -/
def registered (ops : List (Op N)) : List (Cleaner N) := ops.filterMap Op.registers?

/-- The cleaners of `c` are these actions, each named by its place among them. -/
structure Registers (c : Cleanup N) (actions : List (Cleaner N)) : Prop where
  /-- There are as many cleaners as actions. -/
  size : c.size = actions.length
  /-- A cleaner that has not been started is started with the action registered at its place, -/
  starts {id : Nat} {action : Cleaner N} : actions[id]? = some action →
    id ∉ starts c.history.toList →
    c.start id = (some action, (c.without id).log (.started id))
  /-- and one that has been started is not started again. -/
  spent {id : Nat} : id ∈ Cleanup.starts c.history.toList → c.start id = (none, c)

/-! ## At any moment -/

/-- What is so of cleaners is left alone by whatever happens but a registration: cleaners run, the
sweep begins, and it says of a cleaner that it broke off. -/
structure Stable (P : Cleanup N → Prop) : Prop where
  ran {c c' : Cleanup N} {told : List (Event N)} : Ran (fun _ ↦ True) c c' told → P c → P c'
  begin {c : Cleanup N} : P c → P { c with swept := true }
  log {c : Cleanup N} (id : Nat) (fault : Fault) : c.swept = true → P c →
    P (c.log (.failed id fault))

namespace Stable

variable {P : Cleanup N → Prop} {op : Op N}

theorem invoke (hP : Stable P) {result : Except Fault Bool} (h : c.invoke id = (result, c₁))
    (hc : P c) : P c₁ :=
  have ⟨_, hran⟩ := exists_ran_invoke h
  hP.ran hran hc

theorem inside (hP : Stable P) (hstart : c.start id = (some action, c₁)) (h : Within action c₁ c')
    (hc : P c) : P c' :=
  have ⟨_, hfirst⟩ := exists_ran_start hstart
  have ⟨_, hrest⟩ := h.exists_ran
  hP.ran hrest (hP.ran hfirst hc)

theorem withinSweep (hP : Stable P) (h : WithinSweep below c c') (hswept : c.swept = true)
    (hc : P c) : P c' := by
  have still {id : Nat} {c c₁ : Cleanup N} {result : Except Fault Bool}
      (hinvoke : c.invoke id = (result, c₁)) (hswept : c.swept = true) : c₁.swept = true :=
    have ⟨_, hran⟩ := exists_ran_invoke hinvoke
    hran.swept.trans hswept
  induction h with
  | now => exact hc
  | inside hstart hinside => exact hP.inside hstart hinside hc
  | after hinvoke _ ih => exact ih (still hinvoke hswept) (hP.invoke hinvoke hc)
  | failed hinvoke _ ih =>
    have hnext := still hinvoke hswept
    exact ih hnext (hP.log _ _ hnext (hP.invoke hinvoke hc))

theorem within (hP : Stable P) (h : op.Within c c') (hc : P c) : P c' := by
  cases h with
  | now => exact hc
  | invoke hstart hinside => exact hP.inside hstart hinside hc
  | sweep _ hinside => exact hP.withinSweep hinside rfl (hP.begin hc)

end Stable

theorem Rounds.within (h : Rounds below c rounds c') : WithinSweep below c c' := by
  induction h with
  | nil c => exact .now 0 c
  | skip hinvoke _ ih => exact .after hinvoke ih
  | round fault? hinvoke _ _ ih =>
    cases fault? with
    | none => exact .after hinvoke ih
    | some fault => exact .failed hinvoke ih

theorem sweep_of_swept (h : c.swept = true) : c.sweep = (0, c) := by
  rw [sweep, h]
  rfl

namespace Stable

variable {P : Cleanup N → Prop}

theorem sweep (hP : Stable P) (hc : P c) : P c.sweep.2 := by
  cases hswept : c.swept with
  | true =>
    rw [sweep_of_swept hswept]
    exact hc
  | false =>
    obtain ⟨rounds, hrounds, -⟩ := exists_rounds_sweep hswept
    exact hP.withinSweep hrounds.within rfl (hP.begin hc)

theorem apply (hP : Stable P) (op : Op N) (hc : P c)
    (hregister : ∀ action, op = .register action → P (c.register action)) : P (op.apply c) := by
  cases op with
  | register action => exact hregister action rfl
  | invoke id => exact hP.invoke rfl hc
  | sweep => exact hP.sweep hc

end Stable

/-! ## The history -/

theorem stable_tracked : Stable (Tracked : Cleanup N → Prop) where
  ran hran h := h.ran hran
  begin h := h.begin
  log id fault hswept h := h.logFailed hswept id fault

theorem Tracked.applyAll (h : c.Tracked) (ops : List (Op N)) : (c.applyAll ops).Tracked := by
  induction ops generalizing c with
  | nil => exact h
  | cons op ops ih => exact ih (stable_tracked.apply op h fun action _ ↦ h.register action)

theorem Tracked.nodup (h : c.Tracked) : (starts c.history.toList).Nodup := by
  refine List.nodup_iff_count_le_one.mpr fun k ↦ ?_
  have honce := h.once k
  split at honce <;> split at honce <;> omega

theorem Tracked.mem_starts_iff (h : c.Tracked) :
    k ∈ starts c.history.toList ↔ k < c.size ∧ k ∉ c.waiting := by
  have honce := h.once k
  rw [← List.count_pos_iff]
  split at honce <;> split at honce <;> grind

theorem stable_history (events : List (Event N)) :
    Stable fun c : Cleanup N ↦ events <+: c.history.toList where
  ran hran h := h.trans ⟨_, hran.history.symm⟩
  begin h := h
  log id fault _ h := h.trans ⟨[.failed id fault], (Journal.toList_push _ _).symm⟩

/-- Nothing that happened is forgotten. -/
theorem history_applyAll (c : Cleanup N) (ops : List (Op N)) :
    c.history.toList <+: (c.applyAll ops).history.toList := by
  induction ops generalizing c with
  | nil => exact List.prefix_rfl
  | cons op ops ih =>
    exact ((stable_history _).apply op List.prefix_rfl fun _ _ ↦ List.prefix_rfl).trans
      (ih (op.apply c))

theorem swept_sweep (c : Cleanup N) : c.sweep.2.swept = true := by
  cases hswept : c.swept with
  | true =>
    rw [sweep_of_swept hswept]
    exact hswept
  | false =>
    obtain ⟨rounds, hrounds, -⟩ := exists_rounds_sweep hswept
    exact hrounds.sweeps.swept

theorem swept_applyAll (c : Cleanup N) (ops : List (Op N)) :
    (c.applyAll ops).swept = true ↔ c.swept = true ∨ .sweep ∈ ops := by
  induction ops generalizing c with
  | nil => simp [Cleanup.applyAll]
  | cons op ops ih =>
    refine (ih (op.apply c)).trans ?_
    rw [List.mem_cons, ← or_assoc]
    refine or_congr_left ?_
    cases op with
    | register action => simp [Op.apply, register]
    | invoke id =>
      obtain ⟨told, hran⟩ : ∃ told, Ran (fun _ ↦ True) c (c.invoke id).2 told :=
        exists_ran_invoke rfl
      simp [Op.apply, hran.swept]
    | sweep => simp [Op.apply, swept_sweep]

/-! ## The actions registered -/

/-- There are as many cleaners as actions, and whoever waits does so with the one at its place. -/
structure Holds (c : Cleanup N) (actions : List (Cleaner N)) : Prop where
  size : c.size = actions.length
  waiting {id : Nat} {action : Cleaner N} : c.waiting[id]? = some action →
    actions[id]? = some action

theorem stable_holds (actions : List (Cleaner N)) : Stable fun c : Cleanup N ↦ c.Holds actions where
  ran hran h := ⟨hran.size.trans h.size, fun hwaiting ↦ h.waiting (hran.waiting hwaiting)⟩
  begin h := ⟨h.size, h.waiting⟩
  log _ _ _ h := ⟨h.size, h.waiting⟩

theorem holds_empty : (empty : Cleanup N).Holds [] where
  size := rfl
  waiting h := by simp [empty] at h

theorem Holds.register (h : c.Holds actions) (action : Cleaner N) :
    (c.register action).Holds (actions ++ [action]) where
  size := by
    rw [List.length_append, ← h.size]
    rfl
  waiting {id action'} hwaiting := by
    rw [Cleanup.register, Std.TreeMap.getElem?_insert] at hwaiting
    split at hwaiting
    next hid =>
      obtain rfl := Nat.compare_eq_eq.mp hid
      cases hwaiting
      rw [h.size, List.getElem?_concat_length]
    next =>
      have hold := h.waiting hwaiting
      have hlt := (List.getElem?_eq_some_iff.mp hold).1
      rw [List.getElem?_append_left hlt]
      exact hold

theorem Holds.applyAll (h : c.Holds actions) (ops : List (Op N)) :
    (c.applyAll ops).Holds (actions ++ registered ops) := by
  induction ops generalizing c actions with
  | nil =>
    rw [registered, List.filterMap_nil, List.append_nil]
    exact h
  | cons op ops ih =>
    have happlied : (op.apply c).Holds (actions ++ op.registers?.toList) := by
      cases op with
      | register action => exact h.register action
      | invoke id =>
        exact (stable_holds _).apply _ ((List.append_nil actions).symm ▸ h) fun _ ↦ nofun
      | sweep =>
        exact (stable_holds _).apply _ ((List.append_nil actions).symm ▸ h) fun _ ↦ nofun
    have hrest := ih happlied
    rw [List.append_assoc] at hrest
    cases op <;> exact hrest

/-- With the history, this says what a start gives. -/
theorem Holds.registers (h : c.Holds actions) (htracked : c.Tracked) : c.Registers actions where
  size := h.size
  starts {id action} haction hnot := by
    have hlt : id < c.size := h.size ▸ (List.getElem?_eq_some_iff.mp haction).1
    obtain ⟨action', hwaiting⟩ := Option.isSome_iff_exists.mp
      (Std.TreeMap.isSome_getElem?_iff_mem.mpr (htracked.mem_waiting_iff.mpr ⟨hlt, hnot⟩))
    obtain rfl : action' = action :=
      Option.some.inj ((h.waiting hwaiting).symm.trans haction)
    exact start_eq_some hwaiting
  spent hmem := start_eq_none (Std.TreeMap.getElem?_eq_none (htracked.mem_starts_iff.mp hmem).2)

/-- At any moment of what is done, from no cleaners on, the cleaners are those registered so far. -/
theorem registers_within {op : Op N} (ops : List (Op N))
    (h : op.Within (empty.applyAll ops) c) : c.Registers (registered ops) :=
  Holds.registers ((stable_holds _).within h (holds_empty.applyAll ops))
    (stable_tracked.within h (Tracked.empty.applyAll ops))

end Cleanup

end Turnstile
