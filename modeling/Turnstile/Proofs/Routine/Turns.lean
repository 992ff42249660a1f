import Turnstile.Proofs.Routine.Evaluation

/-!
# The turns of the engine

A turn that does not end a run rotates a bind or applies its continuation. A rotation makes nothing
smaller: it moves a bind into a continuation, out of which it comes again later. What bounds the
turns is the direct evaluation. It enters every bind once, before the base of the bind, and passes
it at most once, when the base has a value; a rotation takes apart a bind that is entered inside the
base of another, and a continuation is applied where a bind is passed. So the turns of a run are a
part of what the direct evaluation does, in the same order (`Routine.allTurns_sublist`), and a run
has at most twice as many of them as binds are entered.

## Conversations

The same holds of a whole conversation, where each run goes on with a continuation that the one
before was stopped with, and that may have been put together by its rotations.

A continuation that breaks off gives a routine that does, and it takes one more turn to see that.
This turn ends the run, so it is among those that are counted.
-/

namespace Turnstile

namespace Routine

variable {Op V : Type}

/-! ## What the engine does -/

/-- The loop of the engine, given up if `n` turns do not end it. -/
def loop : Nat → Routine Op V → Option (Outcome Op V)
  | 0, _ => none
  | n + 1, r =>
    match r.reduce with
    | .inl outcome => some outcome
    | .inr r' => loop n r'

/-- What can be done to a bind. -/
inductive Mark where
  /-- It is taken apart, to go on with its base. -/
  | entered
  /-- The value of its base is handed to its continuation. -/
  | passed
  deriving DecidableEq

theorem length_eq_count (marks : List Mark) :
    marks.length = marks.count .entered + marks.count .passed := by
  rw [List.length_eq_countP_add_countP (· == .entered)]
  refine congrArg (_ + ·) (List.countP_congr fun m _ ↦ ?_)
  cases m <;> decide

/-- What the next turn does to a bind, if it does not end the run. A rotation enters the bind that
is the base of the outermost one. -/
def mark : Routine Op V → Mark
  | .flatMap (.flatMap _ _) _ => .entered
  | _ => .passed

/-- What the turns of a run do to binds, up to the turn that ends it. -/
def turns (r : Routine Op V) : List Mark :=
  match _h : r.reduce with
  | .inl _ => []
  | .inr r' => r.mark :: turns r'
termination_by r
decreasing_by exact .turn _h

theorem turns_of_reduce_inl {r : Routine Op V} {outcome : Outcome Op V}
    (h : r.reduce = .inl outcome) : r.turns = [] := by
  rw [turns]
  split
  next => rfl
  next r' h' =>
    rw [h] at h'
    cases h'

theorem turns_of_reduce_inr {r r' : Routine Op V} (h : r.reduce = .inr r') :
    r.turns = r.mark :: r'.turns := by
  rw [turns]
  split
  next outcome h' =>
    rw [h] at h'
    cases h'
  next r'' h' =>
    rw [h] at h'
    rw [Sum.inr.inj h']

theorem loop_eq (n : Nat) (r : Routine Op V) :
    r.loop n = if r.turns.length < n then some r.run else none := by
  induction n generalizing r with
  | zero => rfl
  | succ n ih =>
    rw [loop]
    cases h : r.reduce with
    | inl outcome =>
      rw [turns_of_reduce_inl h, run_of_reduce_inl h]
      exact (if_pos n.succ_pos).symm
    | inr r' =>
      rw [turns_of_reduce_inr h, run_of_reduce_inr h]
      simp only [ih r', List.length_cons, Nat.succ_lt_succ_iff]

/-- The routines that the engine is run on with given answers: the first, and after each question
what its continuation makes of the answer. -/
def runs (r : Routine Op V) : List V → List (Routine Op V)
  | [] => [r]
  | value :: values =>
    match r.run with
    | .suspended _ next => r :: runs (next value) values
    | _ => [r]

theorem map_run_runs (r : Routine Op V) (answers : List V) :
    (r.runs answers).map run = r.converse answers := by
  induction answers generalizing r with
  | nil => rfl
  | cons value values ih =>
    rw [runs, converse]
    cases h : r.run with
    | suspended op next => simp [h, ih]
    | finished value => simp [h]
    | faulted fault => simp [h]

/-- What the turns of all these runs do to binds. -/
def allTurns (r : Routine Op V) (answers : List V) : List Mark := (r.runs answers).flatMap turns

theorem allTurns_of_reduce_inr {r r' : Routine Op V} (h : r.reduce = .inr r') (answers : List V) :
    r.allTurns answers = r.mark :: r'.allTurns answers := by
  cases answers with
  | nil => simp [allTurns, runs, turns_of_reduce_inr h]
  | cons value values =>
    rw [allTurns, allTurns, runs, runs, run_of_reduce_inr h]
    cases r'.run <;> simp [turns_of_reduce_inr h]

theorem allTurns_of_ended {r : Routine Op V} {outcome : Outcome Op V}
    (h : r.reduce = .inl outcome) (hended : ∀ op next, outcome ≠ .suspended op next)
    (answers : List V) : r.allTurns answers = [] := by
  cases answers with
  | nil => simp [allTurns, runs, turns_of_reduce_inl h]
  | cons value values =>
    rw [allTurns, runs, run_of_reduce_inl h]
    cases outcome with
    | suspended op next => exact absurd rfl (hended op next)
    | finished value => simp [turns_of_reduce_inl h]
    | faulted fault => simp [turns_of_reduce_inl h]

theorem allTurns_of_suspended {r : Routine Op V} {op : Op} {next : V → Routine Op V}
    (h : r.reduce = .inl (.suspended op next)) (answers : List V) :
    r.allTurns answers =
      match answers with
      | [] => []
      | value :: values => (next value).allTurns values := by
  cases answers with
  | nil => simp [allTurns, runs, turns_of_reduce_inl h]
  | cons value values =>
    rw [allTurns, runs, run_of_reduce_inl h]
    simp [turns_of_reduce_inl h, allTurns]

theorem allTurns_pure (value : V) (answers : List V) :
    (pure value : Routine Op V).allTurns answers = [] := allTurns_of_ended rfl nofun answers

/-! ## What the direct evaluation does -/

/-- What is done after the base of a bind: if it has a value, the bind is passed, and there is
more. -/
def Ending.pass (ending : Ending V) (more : V → List V → List Mark) : List Mark :=
  match ending with
  | .yields value unused => .passed :: more value unused
  | .breaks _ | .waits => []

/-- What the direct evaluation does to binds with given answers, in order. -/
def trail : Routine Op V → List V → List Mark
  | .flatMap base next, answers =>
    .entered :: base.trail answers ++
      (base.eval answers).ending.pass fun value unused ↦ (next value).trail unused
  | .pure _, _ | .suspend _, _ | .raise _, _ => []

/-- How many binds the direct evaluation enters. -/
def entered (r : Routine Op V) (answers : List V) : Nat := (r.trail answers).count .entered

theorem count_passed_le (r : Routine Op V) (answers : List V) :
    (r.trail answers).count .passed ≤ (r.trail answers).count .entered := by
  induction r generalizing answers with
  | pure | suspend | raise => exact Nat.le_refl 0
  | flatMap base next ihBase ihNext =>
    have hbase := ihBase answers
    rw [trail, List.cons_append, List.count_cons_of_ne (by decide), List.count_cons_self,
      List.count_append, List.count_append]
    cases (base.eval answers).ending with
    | yields value unused =>
      have hnext := ihNext value unused
      rw [Ending.pass, List.count_cons_self, List.count_cons_of_ne (by decide)]
      omega
    | breaks | waits =>
      rw [Ending.pass, List.count_nil, List.count_nil]
      omega

/-! ## The engine and the direct evaluation -/

/-- The turns by which a bind gets through its base are among what the direct evaluation does in the
base; then the bind is passed. -/
theorem allTurns_flatMap (base : Routine Op V) (next : V → Routine Op V) (answers : List V) :
    ((base.flatMap next).allTurns answers).Sublist (base.trail answers ++
      (base.eval answers).ending.pass fun value unused ↦ (next value).allTurns unused) := by
  induction base generalizing next answers with
  | pure value =>
    rw [allTurns_of_reduce_inr rfl]
    exact .refl _
  | suspend op =>
    rw [allTurns_of_suspended rfl]
    cases answers with
    | nil => exact .slnil
    | cons value values => exact .cons _ (.refl _)
  | raise fault => exact List.sublist_nil.mpr (allTurns_of_ended rfl nofun answers)
  | flatMap base next₁ ihBase ihNext =>
    have hbase := ihBase (fun value ↦ (next₁ value).flatMap next) answers
    rw [allTurns_of_reduce_inr rfl, trail, eval, Evaluation.andThen]
    cases h : (base.eval answers).ending with
    | yields value unused =>
      rw [h] at hbase
      have hnext := ihNext value next unused
      have hpass := hbase.trans (List.Sublist.append_left (hnext.cons_cons .passed) _)
      simpa [mark, Ending.pass] using hpass
    | breaks fault =>
      rw [h] at hbase
      simpa [mark, Ending.pass] using hbase
    | waits =>
      rw [h] at hbase
      simpa [mark, Ending.pass] using hbase

/-- The turns of all runs are among what the direct evaluation does to binds: what is missing is to
enter the binds that are in no other's base, and to pass those that an answer was given to. -/
theorem allTurns_sublist (r : Routine Op V) (answers : List V) :
    (r.allTurns answers).Sublist (r.trail answers) := by
  induction r generalizing answers with
  | pure value => exact List.sublist_nil.mpr (allTurns_pure value answers)
  | suspend op =>
    rw [allTurns_of_suspended rfl]
    cases answers with
    | nil => exact .slnil
    | cons value values => exact List.sublist_nil.mpr (allTurns_pure value values)
  | raise fault => exact List.sublist_nil.mpr (allTurns_of_ended rfl nofun answers)
  | flatMap base next _ ihNext =>
    refine (allTurns_flatMap base next answers).trans (.cons _ ?_)
    refine (List.Sublist.refl _).append ?_
    cases (base.eval answers).ending with
    | yields value unused => exact (ihNext value unused).cons_cons .passed
    | breaks | waits => exact .slnil

/-- The turns of a run are bounded by the binds that the direct evaluation enters, up to the first
question. -/
structure Bounded (r : Routine Op V) : Prop where
  /-- The loop ends, and its last turn is at most the one after twice as many as there are binds. -/
  ends : r.loop (2 * r.entered [] + 1) = some r.run
  /-- Each turn before it does to a bind what the direct evaluation does to it, in that order, -/
  among : r.turns.Sublist (r.trail [])
  /-- so no more turns rotate a bind than binds are entered, -/
  rotations : r.turns.count .entered ≤ r.entered []
  /-- and no more apply a continuation. -/
  applications : r.turns.count .passed ≤ r.entered []

theorem length_le_of_sublist {marks : List Mark} {r : Routine Op V} {answers : List V}
    (h : marks.Sublist (r.trail answers)) :
    marks.count .entered ≤ r.entered answers ∧ marks.count .passed ≤ r.entered answers ∧
      marks.length ≤ 2 * r.entered answers := by
  have hentered : marks.count .entered ≤ r.entered answers := h.count_le _
  have hpassed : marks.count .passed ≤ r.entered answers :=
    Nat.le_trans (h.count_le .passed) (count_passed_le r answers)
  have hlength := length_eq_count marks
  omega

theorem bounded (r : Routine Op V) : r.Bounded := by
  have hamong : r.turns.Sublist (r.trail []) := by
    simpa [allTurns, runs] using allTurns_sublist r []
  obtain ⟨hrotations, happlications, hlength⟩ := length_le_of_sublist hamong
  refine ⟨?_, hamong, hrotations, happlications⟩
  rw [loop_eq, if_pos (Nat.lt_succ_of_le hlength)]

/-- **The engine takes no more turns than the direct evaluation has binds to enter and to pass.**
This bounds every run of a conversation by the routine that it is run on, which may be a
continuation that rotations put together, and all of them at once by the first routine. -/
theorem runs_bounded (r : Routine Op V) (answers : List V) :
    (r.runs answers).map run = r.converse answers ∧ (∀ q ∈ r.runs answers, q.Bounded) ∧
      (r.allTurns answers).Sublist (r.trail answers) ∧
      (r.allTurns answers).length ≤ 2 * r.entered answers :=
  have hamong := allTurns_sublist r answers
  ⟨map_run_runs r answers, fun q _ ↦ bounded q, hamong, (length_le_of_sublist hamong).2.2⟩

/-- Three binds nested to the left take two rotations, three applications and a turn to end. -/
example :
    let r := bindTimes (fun n ↦ .pure (n + 1)) 3 (.pure 0 : Routine Unit Nat)
    r.entered [] = 3 ∧ (r.loop 5).isNone ∧ (r.loop 6).isSome := by
  decide

end Routine

end Turnstile
