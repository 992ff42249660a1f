import Turnstile.Proofs.Request.Containment
import Turnstile.Scheduler

/-!
# Moves with user code that raises

The moves of a scheduler, carried out with user code that raises its faults. Each move is what one
thread does between two looks at the pool; so a fault that left a move would end in whoever asked
for the move: the caller of a submit or a stop, a transport that reports an event, or the handlers
of last resort around the workers and around the events. No move lets a fault through
(`Scheduler.attempt_eq`).
-/

namespace Turnstile

namespace Scheduler

variable {σ : Type} [Exchange σ]

/-- Work on a request: the fault that leaves it, or the scheduler after it. -/
def workOn (s : Scheduler σ) (r : Request σ) (work : Attempt σ Unit) : Except Fault (Scheduler σ) :=
  match work ⟨s.pool, r, []⟩ with
  | .ok () w => .ok ({ s with pool := w.pool }.absorb (w.request, w.told))
  | .error f _ => .error f

/-- The next move of a request, with user code that raises. Asking for a slot, being picked up,
passing a gate and giving the slot back run no user code. -/
def attemptRequest (s : Scheduler σ) (r : Request σ) : Except Fault (Scheduler σ) :=
  match r.stage with
  | .running => s.workOn r Attempt.turn
  | .departed exit =>
    s.workOn r (Attempt.depart s.config.maxBodyBytes s.config.writeChunkSize exit)
  | .reading _ _ | .writing _ =>
    match r.nextEvent? with
    | some (event, r) => s.workOn r (Attempt.receive event)
    | none => .ok s
  | .failing failure => s.workOn r (Attempt.fail s.hooks failure)
  | .finishing => s.workOn r (Attempt.finalize s.hooks)
  | .refusing reason admitted => s.workOn r (Attempt.refuse s.hooks reason admitted)
  | _ => .ok (s.advanceRequest r)

/-- The transport forgets a request, with user code that raises. -/
def attemptForget (s : Scheduler σ) (r : Request σ) : Except Fault (Scheduler σ) :=
  match r.stage with
  | .reading .. | .writing _ =>
    s.workOn { r with reads := none, writes := none } (Attempt.lose s.hooks)
  | _ => .ok (s.forgetRequest r)

/-- A move with user code that raises: the fault that leaves it, or the scheduler after it. -/
def attempt (s : Scheduler σ) : Move σ → Except Fault (Scheduler σ)
  | .arrive exchange program => do
    let qos ← tryCatch (s.hooks.classify s.requests.size (Exchange.metadata exchange)) fun _ ↦
      pure s.config.defaultQos
    pure { s with requests := s.requests.push (.new s.requests.size qos exchange program) }
  | .advance ordinal =>
    match s.requests[ordinal]? with
    | some r => s.attemptRequest r
    | none => .ok s
  | .forget ordinal =>
    match s.requests[ordinal]? with
    | some r => s.attemptForget r
    | none => .ok s
  | .drain =>
    match s.draining with
    | ordinal :: draining =>
      match s.requests[ordinal]? with
      | some r => { s with draining }.workOn r (Attempt.refuse s.hooks .shutdown true)
      | none => .ok { s with draining }
    | [] => .ok s
  | m => .ok (s.perform m)

/-! ## No fault leaves a move -/

omit [Exchange σ] in
theorem workOn_eq {s : Scheduler σ} {r : Request σ} {work : Attempt σ Unit} {w : InHand σ}
    (h : work ⟨s.pool, r, []⟩ = .ok () w) :
    s.workOn r work = .ok ({ s with pool := w.pool }.absorb (w.request, w.told)) := by
  rw [workOn, h]

theorem attemptRequest_eq (s : Scheduler σ) (r : Request σ) :
    s.attemptRequest r = .ok (s.advanceRequest r) := by
  rw [attemptRequest, advanceRequest]
  cases r.stage with
  | running => exact workOn_eq (Attempt.turn_eq _)
  | departed exit => exact workOn_eq (Attempt.depart_eq _ _ exit _)
  | reading reader next =>
    cases r.nextEvent? with
    | none => rfl
    | some next => exact workOn_eq (Attempt.receive_eq _ _)
  | writing writer =>
    cases r.nextEvent? with
    | none => rfl
    | some next => exact workOn_eq (Attempt.receive_eq _ _)
  | failing failure => exact workOn_eq (Attempt.fail_eq failure _)
  | finishing => exact workOn_eq (Attempt.finalize_eq _)
  | refusing reason admitted => exact workOn_eq (Attempt.refuse_eq reason admitted _)
  | _ => rfl

omit [Exchange σ] in
theorem attemptForget_eq (s : Scheduler σ) (r : Request σ) :
    s.attemptForget r = .ok (s.forgetRequest r) := by
  rw [attemptForget, forgetRequest]
  cases r.stage with
  | reading reader next => exact workOn_eq (Attempt.lose_eq _)
  | writing writer => exact workOn_eq (Attempt.lose_eq _)
  | _ => rfl

/-- No fault leaves a move, and the move comes to what `Scheduler.perform` says. -/
theorem attempt_eq (s : Scheduler σ) (m : Move σ) : s.attempt m = .ok (s.perform m) := by
  cases m with
  | arrive exchange program =>
    rw [attempt, perform, arrive, Hooks.classOf]
    cases s.hooks.classify s.requests.size (Exchange.metadata exchange) <;> rfl
  | advance ordinal =>
    rw [attempt, perform, advance]
    cases s.requests[ordinal]? with
    | none => rfl
    | some r => exact s.attemptRequest_eq r
  | forget ordinal =>
    rw [attempt, perform, forget]
    cases s.requests[ordinal]? with
    | none => rfl
    | some r => exact s.attemptForget_eq r
  | drain =>
    rw [attempt, perform, drain]
    cases s.draining with
    | nil => rfl
    | cons ordinal draining =>
      dsimp only
      cases s.requests[ordinal]? with
      | none => rfl
      | some r => exact workOn_eq (Attempt.refuse_eq .shutdown true _)
  | _ => rfl

end Scheduler

end Turnstile
