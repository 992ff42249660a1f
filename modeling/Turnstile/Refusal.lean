import Turnstile.Io

/-!
# Refusals

Why the scheduler refuses a request, or refuses to start.
-/

namespace Turnstile

/-- Why the scheduler refuses. -/
inductive Refusal where
  /-- As many requests as allowed hold a worker or wait for one. -/
  | capacityExceeded (maxInFlight : Nat)
  /-- The scheduler has been stopped. -/
  | shutdown
  /-- The queue takes no entry. -/
  | queueFull (reason : String)
  /-- The settings break a rule. -/
  | invalidConfig (reason : String)
  /-- A worker thread could not be started. -/
  | workerSpawn (e : IoError)
  deriving DecidableEq, Repr

namespace Refusal

/-- The wording of a refusal. -/
def message : Refusal → String
  | .capacityExceeded maxInFlight =>
    "capacity exceeded: " ++ toString maxInFlight ++ " requests in flight"
  | .shutdown => "scheduler is shut down"
  | .queueFull reason => "queue full: " ++ reason
  | .invalidConfig reason => "invalid configuration: " ++ reason
  | .workerSpawn e => "failed to spawn worker thread: " ++ e.message

/-- The name of a refusal. -/
def name : Refusal → String
  | .capacityExceeded _ => "CapacityExceeded"
  | .shutdown => "Shutdown"
  | .queueFull _ => "QueueFull"
  | .invalidConfig _ => "InvalidConfig"
  | .workerSpawn _ => "WorkerSpawn"

/-- The refusal as text in logs. -/
def inspect (r : Refusal) : String :=
  match r with
  | .capacityExceeded maxInFlight =>
    Text.inspectRecord r.name [("max_in_flight", toString maxInFlight)]
  | .shutdown => r.name
  | .queueFull reason | .invalidConfig reason => Text.inspectTuple r.name [Text.quote reason]
  | .workerSpawn e => Text.inspectTuple r.name [e.inspect]

end Refusal

end Turnstile
