import Turnstile.Proofs.Scheduler.Locality

/-!
# The operations of a run

`Scheduler.executed` follows a run and lists the operations that the program of one request carries
out. It looks at nothing but where the program stops: a move carries out an operation for a request
if this is the one that moves on, it runs, and its program stops for the operation. Others may move
in between, the transport may report events, and the request may be moved to another class; none of
this carries out anything for it, nor does it touch the dossier of a request that runs
(`Scheduler.Reachable.running_other`).
-/

namespace Turnstile

namespace Scheduler

variable {σ : Type} {s : Scheduler σ} {n : Nat} {r r' : Request σ} {m : Move σ}
  {moves : List (Move σ)}

/-- The operation that a move carries out for the request with an ordinal, if it carries one out. -/
def executes? (s : Scheduler σ) (n : Nat) : Move σ → Option Operation
  | .advance k => if k = n then s.requests[n]?.bind Request.executes? else none
  | _ => none

/-- The operations that the moves of a run carry out for the request with an ordinal, in order. -/
def executed [Exchange σ] (n : Nat) : Scheduler σ → List (Move σ) → List Operation
  | _, [] => []
  | s, m :: moves => (s.executes? n m).toList ++ executed n (s.perform m) moves

theorem executes?_of_ne_running (hr : s.requests[n]? = some r) (h : r.stage ≠ .running)
    (m : Move σ) : s.executes? n m = none := by
  cases m with
  | advance k => simp [executes?, hr, Request.executes?_of_ne_running h]
  | _ => rfl

theorem executes?_of_ne_advance (hm : m ≠ .advance n) : s.executes? n m = none := by
  cases m with
  | advance k => exact if_neg fun hk ↦ hm (congrArg Move.advance hk)
  | _ => rfl

theorem executes?_of_missing (hr : s.requests[n]? = none) (m : Move σ) :
    s.executes? n m = none := by
  cases m with
  | advance k => simp [executes?, hr]
  | _ => rfl

variable [Exchange σ]

theorem executed_append (s : Scheduler σ) (moves more : List (Move σ)) :
    s.executed n (moves ++ more) = s.executed n moves ++ (s.performAll moves).executed n more := by
  induction moves generalizing s with
  | nil => rfl
  | cons m moves ih =>
    rw [List.cons_append, executed, executed, List.append_assoc]
    exact congrArg (_ ++ ·) (ih _)

theorem Reachable.executed_of_missing (h : s.Reachable)
    (hmissing : (s.performAll moves).requests[n]? = none) : s.executed n moves = [] := by
  induction moves generalizing s with
  | nil => rfl
  | cons m moves ih =>
    have hnone : s.requests[n]? = none := by
      cases hr : s.requests[n]? with
      | none => rfl
      | some r =>
        obtain ⟨r', -, hr', -⟩ := h.run_performAll (m :: moves) hr
        exact absurd (hmissing.symm.trans hr') (by simp)
    rw [executed, executes?_of_missing hnone, ih (h.move m) hmissing]
    rfl

theorem Reachable.running_other (h : s.Reachable) (hr : s.requests[n]? = some r)
    (hrunning : r.stage = .running) (hm : m ≠ .advance n)
    (hr' : (s.perform m).requests[n]? = some r') : r'.dossier = r.dossier := by
  by_cases htarget : m.target? = some n
  · obtain rfl := Option.some.inj (hr'.symm.trans (h.affects htarget hr).self)
    cases m with
    | advance k =>
      cases htarget
      exact absurd rfl hm
    | deliver k direction events => cases direction <;> rfl
    | wake k =>
      rw [Circumstances.perform]
      split <;> rfl
    | forget k => rw [Circumstances.perform, Circumstances.forget, hrunning]
    | reprioritize k qos => rw [Circumstances.perform, hrunning]; rfl
    | openGate k => rfl
    | _ => cases htarget
  · obtain ⟨r₁, hr₁, hrestaged, -⟩ := h.bystander htarget hr (by rw [hrunning]; simp)
    cases hr'.symm.trans hr₁
    rcases hrestaged with rfl | ⟨hqueued, -⟩
    · rfl
    · cases hrunning.symm.trans hqueued

end Scheduler

end Turnstile
