import Mathlib.Logic.Relation
import Turnstile.Proofs.Cleanup.Invocation

/-!
# Cleaners inside one another

Firing a cleaner step by step, with a stack of those who wait for it: the cleaners that invoked each
other, and at the bottom the sweep, if it is one. Nothing limits the steps or the stack. A cleaner
may invoke itself, or one that waits for it; it is the start of a cleaner that ends its waiting, and
so there is always one less to start.

Every firing comes to its end (`Cleanup.fire_finishes`), with what `Cleanup.invoke` and
`Cleanup.sweep` say, and on the way no more cleaners run inside one another than waited in the
beginning: whoever runs waited then, and waits no more.
-/

namespace Turnstile

namespace Cleanup

variable {N : Type}

/-! ## The machine -/

/-- Who waits for a cleaner that is fired. -/
inductive Frame (N : Type) where
  /-- The cleaner that invoked it, with what it does next. -/
  | invoker (next : Bool → Cleaner N)
  /-- The sweep: the cleaners below some name are still to come, and so many ended well. -/
  | sweeper (below ran : Nat)

/-- What is done next. -/
inductive Control (N : Type) where
  /-- A cleaner is fired. -/
  | fire (id : Nat)
  /-- A cleaner runs. -/
  | run (script : Cleaner N)
  /-- Whoever waits is told how the firing ended. -/
  | back (result : Except Fault Bool)
  /-- The sweep comes to the cleaners below some name. -/
  | sweep (below ran : Nat)

/-- What is done next, who waits for it, the last one first, and the cleaners. -/
structure Machine (N : Type) where
  control : Control N
  stack : List (Frame N)
  cleanup : Cleanup N

namespace Machine

/-- One step. At the end of a firing for which nobody waits, and at the end of the sweep, there is
none. -/
def step : Machine N → Option (Machine N)
  | ⟨.fire id, stack, c⟩ =>
    match c.start id with
    | (some action, c) => some ⟨.run action, stack, c⟩
    | (none, c) => some ⟨.back (.ok false), stack, c⟩
  | ⟨.run .done, stack, c⟩ => some ⟨.back (.ok true), stack, c⟩
  | ⟨.run (.note n next), stack, c⟩ => some ⟨.run next, stack, c.log (.note n)⟩
  | ⟨.run (.fail fault), stack, c⟩ => some ⟨.back (.error fault), stack, c⟩
  | ⟨.run (.invoke id next), stack, c⟩ => some ⟨.fire id, .invoker next :: stack, c⟩
  | ⟨.back (.ok started), .invoker next :: stack, c⟩ => some ⟨.run (next started), stack, c⟩
  | ⟨.back (.error fault), .invoker _ :: stack, c⟩ => some ⟨.back (.error fault), stack, c⟩
  | ⟨.back (.ok started), .sweeper below ran :: stack, c⟩ =>
    some ⟨.sweep below (if started then ran + 1 else ran), stack, c⟩
  | ⟨.back (.error fault), .sweeper below ran :: stack, c⟩ =>
    some ⟨.sweep below ran, stack, c.log (.failed below fault)⟩
  | ⟨.sweep (below + 1) ran, stack, c⟩ => some ⟨.fire below, .sweeper below ran :: stack, c⟩
  | ⟨.back _, [], _⟩ => none
  | ⟨.sweep 0 _, _, _⟩ => none

/-- The machine comes to another state by steps. -/
def Reaches (m m' : Machine N) : Prop := Relation.ReflTransGen (fun m m' ↦ m.step = some m') m m'

/-- How many of those who wait are cleaners. -/
def invokers (stack : List (Frame N)) : Nat :=
  stack.countP fun
    | .invoker _ => true
    | .sweeper _ _ => false

/-- How many cleaners run, inside one another: the one that is at it, and those that wait. -/
def running (m : Machine N) : Nat :=
  invokers m.stack +
    match m.control with
    | .run _ => 1
    | _ => 0

theorem step_back_nil (result : Except Fault Bool) (c : Cleanup N) :
    step ⟨.back result, [], c⟩ = none := by
  cases result <;> rfl

theorem eq_of_start_eq_none {c c' : Cleanup N} {id : Nat} (h : c.start id = (none, c')) :
    c' = c := by
  rw [start] at h
  split at h <;> cases h
  rfl

theorem running_step {m m' : Machine N} (h : m.step = some m') :
    m'.running + m'.cleanup.pending ≤ m.running + m.cleanup.pending := by
  rw [step.eq_def] at h
  split at h
  · next id stack c =>
    split at h <;> cases h
    · next c₁ hstart =>
      have := pending_start hstart
      simp [running]
      omega
    · next c₁ hnone =>
      obtain rfl := eq_of_start_eq_none hnone
      exact Nat.le_refl _
  all_goals cases h <;> simp [running, invokers, pending, log]

theorem running_reaches {m m' : Machine N} (h : m.Reaches m') :
    m'.running + m'.cleanup.pending ≤ m.running + m.cleanup.pending := by
  induction h with
  | refl => exact Nat.le_refl _
  | tail _ hstep ih => exact Nat.le_trans (running_step hstep) ih

end Machine

/-! ## Where the steps lead -/

open Machine

/-- A script leads to what following it says, if firing leads to what an invocation says as long as
no more cleaners wait. -/
theorem reaches_run {n : Nat} (hfire : ∀ (c : Cleanup N) (id : Nat) (stack : List (Frame N)),
      c.pending ≤ n → Reaches ⟨.fire id, stack, c⟩ ⟨.back (c.invoke id).1, stack, (c.invoke id).2⟩)
    (script : Cleaner N) (c : Cleanup N) (stack : List (Frame N)) (hbound : c.pending ≤ n) :
    Reaches ⟨.run script, stack, c⟩
      ⟨.back ((c.follow script).1.map fun _ ↦ true), stack, (c.follow script).2⟩ := by
  induction script generalizing c with
  | done => exact .single rfl
  | note k next ih => exact .head rfl (ih (c.log (.note k)) hbound)
  | fail fault => exact .single rfl
  | invoke id next ih =>
    have hfired := hfire c id (.invoker next :: stack) hbound
    have hrest : (c.invoke id).2.pending ≤ n := Nat.le_trans (pending_fire _ _ _) hbound
    refine .head rfl (hfired.trans ?_)
    rw [follow, perform]
    cases h : c.invoke id with
    | mk result c₁ =>
      rw [h] at hrest
      cases result with
      | ok started => exact .head rfl (ih started c₁ hrest)
      | error fault => exact .single rfl

/-- Firing leads to what an invocation says, whoever waits for it. -/
theorem reaches_back (c : Cleanup N) (id : Nat) (stack : List (Frame N)) :
    Reaches ⟨.fire id, stack, c⟩ ⟨.back (c.invoke id).1, stack, (c.invoke id).2⟩ := by
  induction hn : c.pending using Nat.strongRecOn generalizing c id stack with
  | _ n ih =>
    by_cases hmem : id ∈ c.waiting
    · obtain ⟨action, hstart⟩ := exists_start hmem
      have hless := pending_start hstart
      have hstep : step ⟨.fire id, stack, c⟩ =
          some ⟨.run action, stack, (c.without id).log (.started id)⟩ := by rw [step, hstart]
      rw [invoke_of_start hstart]
      refine .head hstep (reaches_run (fun c' id' stack' hc' ↦ ?_) action _ stack (Nat.le_refl _))
      exact ih c'.pending (by omega) c' id' stack' rfl
    · have hstep : step ⟨.fire id, stack, c⟩ = some ⟨.back (.ok false), stack, c⟩ := by
        rw [step, start_eq_none (Std.TreeMap.getElem?_eq_none hmem)]
      rw [invoke_of_notWaiting hmem]
      exact .single hstep

theorem reaches_sweep {depth : Nat} (below ran : Nat) (c : Cleanup N) (h : c.pending ≤ depth) :
    Reaches ⟨.sweep below ran, [], c⟩
      ⟨.sweep 0 (sweepBelow depth below ran c).1, [], (sweepBelow depth below ran c).2⟩ := by
  induction below generalizing ran c with
  | zero => exact .refl
  | succ below ih =>
    have hfired := reaches_back c below [.sweeper below ran]
    have hrest : (c.invoke below).2.pending ≤ depth := Nat.le_trans (pending_fire _ _ _) h
    refine .head rfl (hfired.trans ?_)
    rw [sweepBelow, fire_eq_invoke h]
    cases hend : c.invoke below with
    | mk result c₁ =>
      rw [hend] at hrest
      cases result with
      | error fault => exact .head rfl (ih ran (c₁.log (.failed below fault)) hrest)
      | ok started =>
        cases started with
        | true => exact .head rfl (ih (ran + 1) c₁ hrest)
        | false => exact .head rfl (ih ran c₁ hrest)

/-! ## Every firing finishes -/

/-- The machine that sweeps the cleaners, unless it was done. -/
def sweeping (c : Cleanup N) : Machine N :=
  if c.swept then ⟨.sweep 0 0, [], c⟩ else ⟨.sweep c.size 0, [], { c with swept := true }⟩

/-- A firing that begins with the cleaners `c` leads from one state to another. -/
structure Returns (c : Cleanup N) (m last : Machine N) : Prop where
  /-- It gets there, -/
  reaches : m.Reaches last
  /-- and at any moment no more cleaners run, besides those that did, than have ceased to wait. -/
  nested {m' : Machine N} : m.Reaches m' →
    m'.running + m'.cleanup.pending ≤ invokers m.stack + c.pending

/-- So it does, and there it is over. -/
structure Finishes (c : Cleanup N) (m last : Machine N) : Prop extends Returns c m last where
  /-- Nothing is left to do. -/
  rests : last.step = none

theorem returns_fire (c : Cleanup N) (id : Nat) (stack : List (Frame N)) :
    Returns c ⟨.fire id, stack, c⟩ ⟨.back (c.invoke id).1, stack, (c.invoke id).2⟩ where
  reaches := reaches_back c id stack
  nested h := running_reaches h

theorem returns_sweeping (c : Cleanup N) :
    Returns c c.sweeping ⟨.sweep 0 c.sweep.1, [], c.sweep.2⟩ := by
  rw [sweeping, sweep]
  split
  · exact ⟨.refl, fun h ↦ running_reaches h⟩
  · exact ⟨reaches_sweep c.size 0 { c with swept := true } (Nat.le_refl _),
      fun h ↦ running_reaches h⟩

/-- **Every firing finishes, and is nested no deeper than cleaners waited.** It does so inside other
firings, whatever waits for it, and from outside, through a handle or by the sweep; what it comes to
is what an invocation and the sweep say. -/
theorem fire_finishes (c : Cleanup N) :
    (∀ id stack, Returns c ⟨.fire id, stack, c⟩
        ⟨.back (c.invoke id).1, stack, (c.invoke id).2⟩) ∧
      (∀ id, Finishes c ⟨.fire id, [], c⟩ ⟨.back (c.invoke id).1, [], (c.invoke id).2⟩) ∧
      Finishes c c.sweeping ⟨.sweep 0 c.sweep.1, [], c.sweep.2⟩ :=
  ⟨returns_fire c, fun id ↦ ⟨returns_fire c id [], step_back_nil _ _⟩,
    ⟨returns_sweeping c, rfl⟩⟩

/-- Two cleaners that invoke each other: the first that is fired is refused the second time. -/
example :
    let c : Cleanup Unit := (empty.register (.invoke 1 fun _ ↦ .done)).register
      (.invoke 0 fun started ↦ if started then .fail .unlabelled else .done)
    (c.invoke 0).1 = .ok true ∧ (c.invoke 0).2.history.toList = [.started 0, .started 1] := by
  decide

end Cleanup

end Turnstile
