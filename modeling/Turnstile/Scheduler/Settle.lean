import Turnstile.Scheduler

/-!
# Settling

A scheduler run by itself, one request at a time. A request that moves goes on until it waits for
something; then those taken out of the queue are refused; then a worker picks up the request that
has waited longest for one; and when nothing else can move, the transports do what they do on their
own.
-/

namespace Turnstile

namespace Scheduler

variable {σ : Type} [Exchange σ]

/-- The request can move on and does not wait for a worker. -/
def canMove (s : Scheduler σ) (r : Request σ) : Bool :=
  match r.stage with
  | .arriving | .returning | .running | .leaving _ | .departed _ | .failing _ | .finishing
  | .refusing _ _ => true
  | .gated => s.permits.contains r.ordinal
  | .reading _ _ | .writing _ => r.nextEvent?.isSome
  | .queued | .drained | .ready | .gone _ | .lost => false

/-- The transport has something to do on its own for a request whose response is written. -/
def canWake (r : Request σ) : Bool :=
  match r.stage with
  | .writing _ => (Exchange.wake r.exchange).isSome
  | _ => false

/-- The move that comes next, if any request can move. -/
def next? (s : Scheduler σ) : Option (Move σ) :=
  match s.requests.find? s.canMove with
  | some r => some (.advance r.ordinal)
  | none =>
    match s.draining, s.jobs with
    | _ :: _, _ => some .drain
    | [], ordinal :: _ => some (.advance ordinal)
    | [], [] => (s.requests.find? canWake).map fun r ↦ .wake r.ordinal

/-- Make moves until nothing can move, but at most `fuel` of them. -/
def settle : Nat → Scheduler σ → Scheduler σ
  | 0, s => s
  | fuel + 1, s =>
    match s.next? with
    | some m => settle fuel (s.perform m)
    | none => s

/-- A request arrives and asks for a slot. A request that is refused is refused at once. -/
def submit (s : Scheduler σ) (exchange : σ) (program : Program) :
    Except Refusal Nat × Scheduler σ :=
  let ordinal := s.requests.size
  let s := (s.arrive exchange program).advance ordinal
  match s.requests[ordinal]? with
  | some r =>
    match r.stage with
    | .refusing reason _ => (.error reason, s.advance ordinal)
    | _ => (.ok ordinal, s)
  | none => (.ok ordinal, s)

end Scheduler

end Turnstile
