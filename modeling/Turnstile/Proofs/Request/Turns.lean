import Turnstile.Request

/-!
# The turns of a program

A program that holds a worker takes one turn after the other: it is answered and goes on, or it is
led into another program. A dispatch can lead into any of its routes and the answers can be
anything, but a program is a tree, and what it is led into is part of it. So no program holds its
worker for ever.
-/

namespace Turnstile

/-- An operation can lead into a program. -/
inductive Operation.LeadsTo : Operation → Program → Prop where
  /-- The program goes on under another path. -/
  | continueWith (path : String) (q : Program) : LeadsTo (.continueWith path q) q
  /-- A route matches. -/
  | routePath {matcher : String → RouteMatch Program} {path rest : String} {q : Program}
    (h : matcher path = .hit rest q) : LeadsTo (.routePath matcher) q

namespace Program

/-- `Turns p' p` : the program `p'` is left of `p` after a turn. -/
inductive Turns : Program → Program → Prop where
  /-- It is answered. -/
  | resume {p : Program} {op : Operation} {next : Value → Program} (h : p.run = .suspended op next)
    (v : Value) : Turns (.flatMap (.pure v) next) p
  /-- It is led into another program. -/
  | enter {p q : Program} {op : Operation} {next : Value → Program}
    (h : p.run = .suspended op next) (lead : op.LeadsTo q) : Turns (.flatMap q next) p

theorem acc_congr {p p' : Program} (hrun : p.run = p'.run) (h : Acc Turns p') : Acc Turns p := by
  refine ⟨_, fun q hq ↦ h.inv ?_⟩
  cases hq with
  | resume h v => exact .resume (hrun ▸ h) v
  | enter h lead => exact .enter (hrun ▸ h) lead

theorem acc_of_finished {p : Program} {v : Value} (hrun : p.run = .finished v) : Acc Turns p := by
  refine ⟨_, fun q hq ↦ ?_⟩
  cases hq with
  | resume h => rw [hrun] at h; cases h
  | enter h => rw [hrun] at h; cases h

theorem acc_of_faulted {p : Program} {f : Fault} (hrun : p.run = .faulted f) : Acc Turns p := by
  refine ⟨_, fun q hq ↦ ?_⟩
  cases hq with
  | resume h => rw [hrun] at h; cases h
  | enter h => rw [hrun] at h; cases h

/-- With `q` in front of it, whatever comes to an end still does. -/
def Composes (q : Program) : Prop :=
  ∀ next : Value → Program, (∀ v, Acc Turns (next v)) → Acc Turns (.flatMap q next)

theorem composes_pure (v : Value) : Composes (.pure v) := fun _ hnext ↦
  acc_congr (Routine.run_of_reduce_inr rfl) (hnext v)

theorem acc_of_suspended {p : Program} {op : Operation} {next : Value → Program}
    (hrun : p.run = .suspended op next) (hop : ∀ q, op.LeadsTo q → Composes q)
    (hnext : ∀ v, Acc Turns (next v)) : Acc Turns p := by
  refine ⟨_, fun q hq ↦ ?_⟩
  cases hq with
  | resume h v =>
    rw [hrun] at h
    cases h
    -- the answer is put in front of the continuation, so this is a turn of the engine
    exact composes_pure v next hnext
  | enter h lead =>
    rw [hrun] at h
    cases h
    exact hop _ lead next hnext

mutual

theorem composes : ∀ q : Program, Composes q
  | .pure v => composes_pure v
  | .raise _ => fun _ _ ↦ acc_of_faulted (Routine.run_of_reduce_inl rfl)
  | .suspend op => fun _ hnext ↦
    acc_of_suspended (Routine.run_of_reduce_inl rfl) (composes_of_leadsTo op) hnext
  | .flatMap base next₁ => fun next₂ hnext ↦
    acc_congr (Routine.run_of_reduce_inr rfl)
      (composes base (fun v ↦ .flatMap (next₁ v) next₂) fun v ↦ composes (next₁ v) next₂ hnext)

theorem composes_of_leadsTo : ∀ (op : Operation) (q : Program), op.LeadsTo q → Composes q
  | .continueWith _ q, _, .continueWith _ _ => composes q
  | .routePath matcher, _, .routePath h => composes_of_hit (matcher _) h

theorem composes_of_hit : ∀ (m : RouteMatch Program) {rest : String} {q : Program},
    m = .hit rest q → Composes q
  | .hit _ q, _, _, rfl => composes q

end

/-- Every program comes to an end of its turns. -/
theorem acc_turns (p : Program) : Acc Turns p := by
  induction p with
  | pure v => exact acc_of_finished (Routine.run_of_reduce_inl rfl)
  | raise f => exact acc_of_faulted (Routine.run_of_reduce_inl rfl)
  | suspend op =>
    exact acc_of_suspended (Routine.run_of_reduce_inl rfl) (composes_of_leadsTo op)
      fun v ↦ acc_of_finished (Routine.run_of_reduce_inl rfl)
  | flatMap base next _ ih => exact composes base next ih

end Program

namespace Request

variable {σ : Type} [Exchange σ] {r : Request σ} {p : Program}

theorem turn_cases (hp : r.program = some p) :
    (r.turn.1.stage = .running ∧ ∃ p', r.turn.1.program = some p' ∧ p'.Turns p) ∨
      r.turn.1.stage = .gated ∨ ∃ exit, r.turn.1.stage = .leaving exit := by
  rw [turn, hp]
  dsimp only
  cases hrun : p.run with
  | finished v => cases v <;> exact .inr (.inr ⟨_, rfl⟩)
  | faulted f => exact .inr (.inr ⟨_, rfl⟩)
  | suspended op next =>
    have hresume (v : Value) : Program.Turns (.flatMap (.pure v) next) p := .resume hrun v
    cases op with
    | invokeCleaner handle =>
      dsimp only [proceed, Dossier.answer]
      split
      · exact .inl ⟨rfl, _, rfl, hresume _⟩
      · exact .inr (.inr ⟨_, rfl⟩)
    | routePath matcher =>
      dsimp only [proceed, Dossier.answer]
      split
      · exact .inr (.inr ⟨_, rfl⟩)
      next h => exact .inl ⟨rfl, _, rfl, .enter hrun (.routePath h)⟩
      · exact .inr (.inr ⟨_, rfl⟩)
    | continueWith path q => exact .inl ⟨rfl, _, rfl, .enter hrun (.continueWith path q)⟩
    | abort response => exact .inr (.inr ⟨_, rfl⟩)
    | readBody limit => exact .inr (.inr ⟨_, rfl⟩)
    | act action =>
      cases action with
      | gate => exact .inr (.inl rfl)
      | note text => exact .inl ⟨rfl, _, rfl, hresume _⟩
      | look handle => exact .inl ⟨rfl, _, rfl, hresume _⟩
    | _ => exact .inl ⟨rfl, _, rfl, hresume _⟩

omit [Exchange σ] in
theorem receiveRead_cases (r : Request σ) (reader : BodyReader) (next : Value → Program)
    (event : IoEvent) :
    (∃ reader', r.receiveRead reader next event = { r with stage := .reading reader' next }) ∨
      (r.receiveRead reader next event).stage = .returning ∨
      (∃ limit, (r.receiveRead reader next event).stage = .departed (.respond (.tooLarge limit))) ∨
      ∃ e, (r.receiveRead reader next event).stage = .failing (.read e) := by
  unfold receiveRead
  split
  · exact .inl ⟨_, rfl⟩
  · exact .inr (.inl rfl)
  · exact .inr (.inr (.inl ⟨_, rfl⟩))
  · exact .inr (.inr (.inr ⟨_, rfl⟩))

end Request

end Turnstile
