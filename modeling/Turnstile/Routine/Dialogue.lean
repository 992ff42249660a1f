import Turnstile.Routine.Run

/-!
# Dialogues

What a routine asks and how it ends, with the turns of the engine left out: a tree that branches
on the answers. The dialogue of a routine is defined by recursion on the routine, without the
engine, and `dialogue_run` says that the engine follows it.
-/

namespace Turnstile

/-- Questions, answers and an end. -/
inductive Dialogue (Op V : Type) where
  /-- The end, with a value. -/
  | finished (value : V)
  /-- The end, with a fault. -/
  | faulted (fault : Fault)
  /-- A question, and how the dialogue goes on with each answer. -/
  | asks (op : Op) (next : V → Dialogue Op V)

namespace Dialogue

variable {Op V : Type}

/-- Another dialogue takes over where the first ends with a value. -/
def bind : Dialogue Op V → (V → Dialogue Op V) → Dialogue Op V
  | .finished value, next => next value
  | .faulted fault, _ => .faulted fault
  | .asks op more, next => .asks op fun value ↦ (more value).bind next

@[simp] theorem bind_finished (d : Dialogue Op V) : d.bind .finished = d := by
  induction d with
  | finished value => rfl
  | faulted fault => rfl
  | asks op next ih => simp only [bind, ih]

theorem bind_bind (d : Dialogue Op V) (next₁ next₂ : V → Dialogue Op V) :
    (d.bind next₁).bind next₂ = d.bind fun value ↦ (next₁ value).bind next₂ := by
  induction d with
  | finished value => rfl
  | faulted fault => rfl
  | asks op next ih => simp only [bind, ih]

end Dialogue

namespace Routine

variable {Op V : Type}

/-- The dialogue of a routine. -/
def dialogue : Routine Op V → Dialogue Op V
  | .pure value => .finished value
  | .suspend op => .asks op .finished
  | .raise fault => .faulted fault
  | .flatMap base next => base.dialogue.bind fun value ↦ (next value).dialogue

/-- What is left of a dialogue after a run. -/
def Outcome.dialogue : Outcome Op V → Dialogue Op V
  | .finished value => .finished value
  | .suspended op next => .asks op fun value ↦ (next value).dialogue
  | .faulted fault => .faulted fault

theorem dialogue_eq_of_reduce_inl {r : Routine Op V} {outcome : Outcome Op V}
    (h : r.reduce = .inl outcome) : outcome.dialogue = r.dialogue := by
  unfold reduce at h
  split at h <;> cases h <;> rfl

theorem dialogue_eq_of_reduce_inr {r r' : Routine Op V} (h : r.reduce = .inr r') :
    r'.dialogue = r.dialogue := by
  unfold reduce at h
  split at h <;> cases h
  · rfl
  · simp only [dialogue, Dialogue.bind_bind]

/-- The engine follows the dialogue up to its first question or its end. -/
theorem dialogue_run (r : Routine Op V) : r.run.dialogue = r.dialogue := by
  induction r using wellFounded_follows.induction with
  | _ r ih =>
    unfold run
    split
    next outcome h => exact dialogue_eq_of_reduce_inl h
    next r' h => rw [ih r' (.turn h), dialogue_eq_of_reduce_inr h]

/-- Run a routine and answer its questions in order, as long as there are answers: the outcomes of
all runs. -/
def converse (r : Routine Op V) : List V → List (Outcome Op V)
  | [] => [r.run]
  | value :: values =>
    match r.run with
    | .suspended op next => .suspended op next :: converse (next value) values
    | outcome => [outcome]

end Routine

end Turnstile
