import Turnstile.Qos
import Turnstile.Json
import Turnstile.Text.Inspect

/-!
# Settings

The size of the worker pool, the admission cap and the limits on bodies and writes.
-/

namespace Turnstile

/-- The settings of a scheduler. -/
structure Config where
  /-- How many requests may hold a worker at once. -/
  workerCount : Nat
  /-- How many requests may hold a worker or wait for one. -/
  maxInFlight : Nat
  /-- A ceiling on every limit for a request body. -/
  maxBodyBytes : Nat
  /-- The largest single write of a response body. -/
  writeChunkSize : Nat
  /-- The stack of a worker thread, in bytes. -/
  threadStackSize : Nat
  /-- What the names of worker threads begin with. -/
  threadNamePrefix : String
  /-- The class of requests that nobody classifies. -/
  defaultQos : Qos
  deriving DecidableEq, Repr

namespace Config

/-- How many requests may be in flight for each worker, by default. -/
def inFlightPerWorker : Nat := 64

/-- The defaults for a number of workers. -/
def sized (workers : Nat) : Config where
  workerCount := workers
  maxInFlight := workers * inFlightPerWorker
  maxBodyBytes := 1024 * 1024
  writeChunkSize := 2048
  threadStackSize := 2 * 1024 * 1024
  threadNamePrefix := "qos-worker"
  defaultQos := .normal

/-- A rule that settings can break. -/
inductive Defect where
  /-- There is no worker. -/
  | noWorkers
  /-- The cap is below the number of workers. -/
  | capBelowWorkers (maxInFlight workerCount : Nat)
  /-- No body byte may be read. -/
  | noBodyBytes
  /-- No byte may be written. -/
  | noWriteChunk
  /-- Worker threads have no stack. -/
  | noThreadStack
  deriving DecidableEq, Repr

/-- The wording of a broken rule. -/
def Defect.message : Defect → String
  | .noWorkers => "worker_count must be greater than 0"
  | .capBelowWorkers maxInFlight workerCount =>
    "max_in_flight (" ++ toString maxInFlight ++ ") must be at least worker_count (" ++
      toString workerCount ++ ")"
  | .noBodyBytes => "max_body_bytes must be greater than 0"
  | .noWriteChunk => "write_chunk_size must be greater than 0"
  | .noThreadStack => "thread_stack_size must be greater than 0"

/-- The first rule that the settings break, if any. -/
def defect? (c : Config) : Option Defect :=
  if c.workerCount = 0 then some .noWorkers
  else if c.maxInFlight < c.workerCount then some (.capBelowWorkers c.maxInFlight c.workerCount)
  else if c.maxBodyBytes = 0 then some .noBodyBytes
  else if c.writeChunkSize = 0 then some .noWriteChunk
  else if c.threadStackSize = 0 then some .noThreadStack
  else none

/-- The settings, if they break no rule. -/
def validate (c : Config) : Except Defect Config :=
  match c.defect? with
  | some defect => .error defect
  | none => .ok c

/-- The settings keep every rule. -/
structure Valid (c : Config) : Prop where
  /-- There is a worker. -/
  workers : 0 < c.workerCount
  /-- The cap leaves room for all workers. -/
  cap : c.workerCount ≤ c.maxInFlight
  /-- Some body byte may be read. -/
  body : 0 < c.maxBodyBytes
  /-- Some byte may be written. -/
  chunk : 0 < c.writeChunkSize
  /-- Worker threads have a stack. -/
  stack : 0 < c.threadStackSize

theorem defect?_eq_none_iff {c : Config} : c.defect? = none ↔ c.Valid := by
  constructor
  · intro h
    simp only [defect?] at h
    split at h <;> try contradiction
    split at h <;> try contradiction
    split at h <;> try contradiction
    split at h <;> try contradiction
    split at h <;> try contradiction
    constructor <;> omega
  · rintro ⟨h₁, h₂, h₃, h₄, h₅⟩
    simp only [defect?]
    rw [if_neg (by omega), if_neg (by omega), if_neg (by omega), if_neg (by omega),
      if_neg (by omega)]

/-- The settings as a JSON object. -/
def toJson (c : Config) : Json :=
  .ofMembers
    [("worker_count", .ofNat c.workerCount), ("max_in_flight", .ofNat c.maxInFlight),
      ("max_body_bytes", .ofNat c.maxBodyBytes), ("write_chunk_size", .ofNat c.writeChunkSize),
      ("thread_stack_size", .ofNat c.threadStackSize),
      ("thread_name_prefix", .ofString c.threadNamePrefix),
      ("default_qos", .ofString c.defaultQos.name)]

/-- The settings as JSON text. -/
def render (c : Config) : String := c.toJson.render

/-- The settings as text in logs. -/
def inspect (c : Config) : String :=
  Text.inspectRecord "SchedulerConfig"
    [("worker_count", toString c.workerCount), ("max_in_flight", toString c.maxInFlight),
      ("max_body_bytes", toString c.maxBodyBytes), ("write_chunk_size", toString c.writeChunkSize),
      ("thread_stack_size", toString c.threadStackSize),
      ("thread_name_prefix", Text.quote c.threadNamePrefix), ("default_qos", c.defaultQos.inspect)]

end Config

end Turnstile
