import Turnstile.Routine.Basic

/-!
# Running a routine

`reduce` is one turn of the engine: it finishes, stops at a question, breaks off, applies the
continuation of a finished base, or rotates one left-nested bind to the right. `run` repeats it.
A rotation does not make the routine smaller, so that `run` ends is the content of
`wellFounded_follows`: every routine finishes or breaks off after finitely many turns and answers,
whatever the nesting, whatever the answers and whatever its continuations return.
-/

namespace Turnstile

namespace Routine

variable {Op V : Type}

/-- How a run ends. -/
inductive Outcome (Op V : Type) where
  /-- The routine produced its final value. -/
  | finished (value : V)
  /-- The routine waits for the answer to `op`. -/
  | suspended (op : Op) (next : V → Routine Op V)
  /-- The routine broke off. -/
  | faulted (fault : Fault)

/-- An outcome as text, with questions shown by `showOp`. -/
def Outcome.inspect (showOp : Op → String) : Outcome Op V → String
  | .finished _ => "Finished(..)"
  | .suspended op _ => "Suspended(" ++ showOp op ++ ", \"..\")"
  | .faulted _ => "Faulted(..)"

/-- One turn of the engine. -/
def reduce : Routine Op V → Outcome Op V ⊕ Routine Op V
  | .pure value => .inl (.finished value)
  | .suspend op => .inl (.suspended op .pure)
  | .raise fault => .inl (.faulted fault)
  | .flatMap (.pure value) next => .inr (next value)
  | .flatMap (.suspend op) next => .inl (.suspended op next)
  | .flatMap (.raise fault) _ => .inl (.faulted fault)
  | .flatMap (.flatMap base next₁) next₂ =>
    .inr (.flatMap base fun value ↦ .flatMap (next₁ value) next₂)

/-- `r'` is how `r` goes on: by one turn, or with an answer to the question it stopped at. -/
inductive Follows : Routine Op V → Routine Op V → Prop where
  /-- By one turn. -/
  | turn {r r' : Routine Op V} (h : r.reduce = .inr r') : Follows r' r
  /-- With an answer. -/
  | answer {r : Routine Op V} {op : Op} {next : V → Routine Op V}
      (h : r.reduce = .inl (.suspended op next)) (value : V) : Follows (next value) r

theorem acc_pure (value : V) : Acc Follows (.pure value : Routine Op V) :=
  ⟨_, fun r' h ↦ by cases h with
    | turn h => cases h
    | answer h value => cases h⟩

/-- A bind comes to an end if all its continuations do. -/
theorem acc_flatMap (base : Routine Op V) : ∀ next : V → Routine Op V,
    (∀ value, Acc Follows (next value)) → Acc Follows (base.flatMap next) := by
  induction base with
  | pure value =>
    refine fun next hnext ↦ ⟨_, fun r' h ↦ ?_⟩
    cases h with
    | turn h => cases h; exact hnext value
    | answer h value => cases h
  | suspend op =>
    refine fun next hnext ↦ ⟨_, fun r' h ↦ ?_⟩
    cases h with
    | turn h => cases h
    | answer h value => cases h; exact hnext value
  | raise fault =>
    refine fun next _ ↦ ⟨_, fun r' h ↦ ?_⟩
    cases h with
    | turn h => cases h
    | answer h value => cases h
  | flatMap base next₁ ihBase ihNext =>
    refine fun next₂ hnext ↦ ⟨_, fun r' h ↦ ?_⟩
    cases h with
    | turn h => cases h; exact ihBase _ fun value ↦ ihNext value next₂ hnext
    | answer h value => cases h

/-- Every routine comes to an end, whatever the answers. -/
theorem acc_follows (r : Routine Op V) : Acc Follows r := by
  induction r with
  | pure value => exact acc_pure value
  | suspend op =>
    refine ⟨_, fun r' h ↦ ?_⟩
    cases h with
    | turn h => cases h
    | answer h value => cases h; exact acc_pure value
  | raise fault =>
    refine ⟨_, fun r' h ↦ ?_⟩
    cases h with
    | turn h => cases h
    | answer h value => cases h
  | flatMap base next _ ihNext => exact acc_flatMap base next ihNext

/-- No routine goes on forever. -/
theorem wellFounded_follows : WellFounded (@Follows Op V) := ⟨acc_follows⟩

instance : WellFoundedRelation (Routine Op V) := ⟨Follows, wellFounded_follows⟩

/-- Run a routine until it finishes, stops at a question, or breaks off. -/
def run (r : Routine Op V) : Outcome Op V :=
  match _h : r.reduce with
  | .inl outcome => outcome
  | .inr r' => run r'
termination_by r
decreasing_by exact .turn _h

theorem run_of_reduce_inl {r : Routine Op V} {outcome : Outcome Op V}
    (h : r.reduce = .inl outcome) : r.run = outcome := by
  unfold run
  split
  next outcome' h' =>
    rw [h] at h'
    exact (Sum.inl.inj h').symm
  next r' h' =>
    rw [h] at h'
    cases h'

theorem run_of_reduce_inr {r r' : Routine Op V} (h : r.reduce = .inr r') : r.run = r'.run := by
  rw [run]
  split
  next outcome h' =>
    rw [h] at h'
    cases h'
  next r'' h' =>
    rw [h] at h'
    rw [Sum.inr.inj h']

end Routine

end Turnstile
