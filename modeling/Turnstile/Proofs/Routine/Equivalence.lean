import Turnstile.Proofs.Routine.Evaluation

/-!
# Equivalent routines

Two routines are equivalent if nobody who answers their questions can tell them apart: with any
answers the engine asks the same for both, in the same order, and ends in the same way. They need
not be built in the same way, and the engine need not take the same turns.

The dialogue of a routine is all that can be told of it (`Routine.equivalent_iff`). Two dialogues
that differ do so at a first place, and the answers that lead there show the difference. So the
laws of binds are those of binds of dialogues, where equivalence is equality.
-/

namespace Turnstile

namespace Dialogue

variable {Op V : Type}

/-- Dialogues that show the same with any answers are the same. -/
theorem eq_of_signs_play {d d' : Dialogue Op V}
    (h : ∀ answers, (d.play answers).signs = (d'.play answers).signs) : d = d' := by
  induction d generalizing d' with
  | finished value =>
    have hnow := h []
    cases d' with
    | finished value' => cases hnow; rfl
    | faulted fault' => cases hnow
    | asks op' next' => cases hnow
  | faulted fault =>
    have hnow := h []
    cases d' with
    | finished value' => cases hnow
    | faulted fault' => cases hnow; rfl
    | asks op' next' => cases hnow
  | asks op next ih =>
    have hnow := h []
    cases d' with
    | finished value' => cases hnow
    | faulted fault' => cases hnow
    | asks op' next' =>
      obtain rfl : op = op' := by cases hnow; rfl
      -- what comes after the first answer is told by the answers behind it
      have hnext (answer : V) : next answer = next' answer :=
        ih answer fun answers ↦ List.tail_eq_of_cons_eq (h (answer :: answers))
      rw [funext hnext]

end Dialogue

namespace Routine

variable {Op V : Type}

/-- With any answers, the engine shows the same of both: the same questions in the same order, and
the same value or the same fault at the end. -/
def Equivalent (p q : Routine Op V) : Prop := ∀ answers : List V, p.shows answers = q.shows answers

/-- Equivalent routines are those with one dialogue. -/
theorem equivalent_iff {p q : Routine Op V} : p.Equivalent q ↔ p.dialogue = q.dialogue := by
  constructor
  · intro h
    apply Dialogue.eq_of_signs_play
    intro answers
    rw [← shows_eq_play, ← shows_eq_play]
    exact h answers
  · intro h answers
    rw [shows_eq_play, shows_eq_play, h]

namespace Equivalent

theorem refl (p : Routine Op V) : p.Equivalent p := fun _ ↦ rfl

theorem pure_flatMap (value : V) (next : V → Routine Op V) :
    ((pure value).flatMap next).Equivalent (next value) := equivalent_iff.mpr rfl

theorem flatMap_pure (p : Routine Op V) : (p.flatMap pure).Equivalent p :=
  equivalent_iff.mpr p.dialogue.bind_finished

theorem flatMap_flatMap (p : Routine Op V) (next₁ next₂ : V → Routine Op V) :
    ((p.flatMap next₁).flatMap next₂).Equivalent
      (p.flatMap fun value ↦ (next₁ value).flatMap next₂) :=
  equivalent_iff.mpr (p.dialogue.bind_bind _ _)

theorem flatMap {p q : Routine Op V} {next₁ next₂ : V → Routine Op V} (h : p.Equivalent q)
    (hnext : ∀ value, (next₁ value).Equivalent (next₂ value)) :
    (p.flatMap next₁).Equivalent (q.flatMap next₂) := by
  have hdialogues : (fun value ↦ (next₁ value).dialogue) = fun value ↦ (next₂ value).dialogue :=
    funext fun value ↦ equivalent_iff.mp (hnext value)
  rw [equivalent_iff, dialogue, dialogue, equivalent_iff.mp h, hdialogues]

end Equivalent

end Routine

end Turnstile
