import Turnstile.Queue
import Turnstile.Refusal

/-!
# The worker pool

Who holds a worker, who waits for one, and who has to be refused. At most `workers` requests hold a
slot at once; the others wait in a queue in the order of service. The pool counts requests and does
not know what they do.
-/

namespace Turnstile

/-- Slots, queue and counters. -/
structure Pool where
  /-- How many slots there are. -/
  workers : Nat
  /-- How many requests may hold a slot or wait for one. -/
  maxInFlight : Nat
  /-- The requests that wait, by rank. -/
  queue : Queue Unit
  /-- How many requests hold a slot. -/
  live : Nat
  /-- How many requests were accepted and have not left. -/
  outstanding : Nat
  /-- Nobody is admitted any more. -/
  stopped : Bool
  /-- The way to the workers is open. -/
  channelOpen : Bool
  /-- How many requests were accepted. -/
  submitted : Nat
  /-- How many requests were answered. -/
  completed : Nat
  /-- How many requests were refused. -/
  rejected : Nat
  /-- How many requests failed. -/
  failed : Nat

/-- Where a request that asks for a slot comes from. -/
inductive Admission where
  /-- It has just arrived. -/
  | fresh
  /-- It was accepted before and comes back with its body. -/
  | resumed
  deriving DecidableEq, Repr

/-- Where a request that asks for a slot is put. -/
inductive Placement where
  /-- It holds a slot. -/
  | live
  /-- It waits for one. -/
  | queued
  deriving DecidableEq, Repr

namespace Pool

/-- A pool without requests. -/
def empty (workers maxInFlight : Nat) : Pool where
  workers := workers
  maxInFlight := maxInFlight
  queue := .empty maxInFlight
  live := 0
  outstanding := 0
  stopped := false
  channelOpen := true
  submitted := 0
  completed := 0
  rejected := 0
  failed := 0

/-- How many requests hold a slot or wait for one. -/
def active (p : Pool) : Nat := p.live + p.queue.size

/-- No request is anywhere. -/
def isIdle (p : Pool) : Bool := p.live = 0 && p.queue.isEmpty && p.outstanding = 0

/-- A fresh request is counted when it is accepted. -/
def accept (p : Pool) : Admission → Pool
  | .fresh => { p with outstanding := p.outstanding + 1, submitted := p.submitted + 1 }
  | .resumed => p

/-- Hand a request to the workers, which takes a slot. -/
def startLive (p : Pool) : Except Refusal Pool :=
  if p.channelOpen then .ok { p with live := p.live + 1 } else .error .shutdown

theorem queue_of_startLive {p p' : Pool} (h : p.startLive = .ok p') : p'.queue = p.queue := by
  unfold startLive at h
  split at h <;> cases h
  rfl

/-- Find a place for a request: a free slot, or room in the queue below the cap. -/
def place (p : Pool) (rank : Rank) : Except Refusal (Placement × Pool) :=
  if p.stopped then .error .shutdown
  else if p.live < p.workers then
    match p.startLive with
    | .ok p => .ok (.live, p)
    | .error refusal => .error refusal
  else if p.maxInFlight ≤ p.active then .error (.capacityExceeded p.maxInFlight)
  else
    match p.queue.enqueue rank () with
    | .ok queue => .ok (.queued, { p with queue })
    | .error (full, _) => .error (.queueFull full.reason)

/-- Find a place for a request and count it, or say why it is refused. -/
def enroll (p : Pool) (rank : Rank) (admission : Admission) :
    Except Refusal (Placement × Pool) :=
  match p.place rank with
  | .ok (placement, p) => .ok (placement, p.accept admission)
  | .error refusal => .error refusal

/-- What became of the requests that were taken out of the queue to be given a slot. -/
structure Promotion where
  /-- Those that got a slot, in the order they got it. -/
  promoted : List Nat
  /-- Those that have to be refused, and why. -/
  barred : List (Nat × Refusal)
  /-- The pool after it. -/
  pool : Pool

/-- Give the free slots to those who wait, the first in the order of service first. -/
def promote (p : Pool) : Promotion :=
  if p.stopped || p.workers ≤ p.live then ⟨[], [], p⟩
  else
    match _h : p.queue.dequeue? with
    | none => ⟨[], [], p⟩
    | some (rank, _, queue) =>
      match _h' : startLive { p with queue } with
      | .ok p =>
        let rest := promote p
        { rest with promoted := rank.ordinal :: rest.promoted }
      | .error reason =>
        let rest := promote { p with queue }
        { rest with barred := (rank.ordinal, reason) :: rest.barred }
termination_by p.queue.size
decreasing_by
  · rw [queue_of_startLive _h']
    exact Queue.size_lt_of_dequeue? _h
  · exact Queue.size_lt_of_dequeue? _h

/-- Give a slot back and let those who wait move up. -/
def release (p : Pool) : Promotion := promote { p with live := p.live - 1 }

/-- A request was refused. -/
def refuse (p : Pool) (admitted : Bool) : Pool :=
  { p with
    rejected := p.rejected + 1
    outstanding := if admitted then p.outstanding - 1 else p.outstanding }

/-- A request failed. -/
def countFailure (p : Pool) : Pool := { p with failed := p.failed + 1 }

/-- A request left, and `completed` says whether in good order. -/
def retire (p : Pool) (completed : Bool) : Pool :=
  { p with
    outstanding := p.outstanding - 1
    completed := if completed then p.completed + 1 else p.completed }

/-- Move a waiting request to its place in another class, if it waits. -/
def reprioritize? (p : Pool) (ordinal : Nat) (qos : Qos) : Option Pool :=
  (p.queue.reprioritize? ordinal qos).map fun (_, queue) ↦ { p with queue }

/-- Admit nobody any more. The requests that waited are named in the order of service, unless the
pool was stopped before. -/
def stop (p : Pool) : List Nat × Pool :=
  if p.stopped then ([], p)
  else
    (p.queue.ordinals,
      { p with stopped := true, channelOpen := false, queue := p.queue.drain.2 })

end Pool

end Turnstile
