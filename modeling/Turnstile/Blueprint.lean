import Turnstile.Room
import Turnstile.Scheduler

/-!
# Blueprints

Settings and hooks from which a scheduler is built, and what can go wrong when it is. A hook that
is left out is the plain one: nobody is told of failures, a failed request gets the response that
names it, and every request has the class of the settings.
-/

namespace Turnstile

/-- What a scheduler is built from. -/
structure Blueprint where
  /-- The settings. -/
  config : Config
  /-- What is told of failures. -/
  sense? : Option (SensorEvent → Option Fault)
  /-- What words the response to a failed request. -/
  format? : Option (Nat → Metadata → Except Fault Response)
  /-- What classifies requests. -/
  classify? : Option (Nat → Classifier)
  /-- How kinds of values are named in messages. -/
  kindName : Kind → String

namespace Blueprint

/-- Settings without hooks. -/
def new (config : Config) : Blueprint := ⟨config, none, none, none, Kind.name⟩

/-- The hooks, with the plain ones in the place of those left out. -/
def hooks (b : Blueprint) : Hooks :=
  let plain := Hooks.plain b.config.defaultQos
  { classify := b.classify?.getD plain.classify
    format := b.format?.getD plain.format
    sense := b.sense?.getD plain.sense
    kindName := b.kindName }

/-- How many bytes the record of a worker takes. -/
def workerSize : Nat := 24

/-- The name of the thread of a worker. -/
def workerName (b : Blueprint) (worker : Nat) : String :=
  b.config.threadNamePrefix ++ "-" ++ toString worker

/-- Why a thread cannot have a name, if it cannot: a zero byte would end it. -/
def nameFault? (name : String) : Option Fault :=
  let bytes := Bytes.ofText name
  (bytes.findIdx? (· == 0)).map fun position ↦
    let parts := [toString position, Text.inspectList (bytes.map fun b ↦ toString b.toNat)]
    .text ("thread name may not contain interior null bytes: " ++
      Text.inspectTuple "NulError" parts)

/-- Why no scheduler was built. -/
inductive BuildError where
  /-- The settings break a rule. -/
  | refused (reason : Refusal)
  /-- The threads of the workers cannot be set up: there are too many to keep a record of, or
  they cannot have their names. -/
  | broken (fault : Fault)
  deriving Repr

/-- Set up the threads of the workers. All their names have the same front, so the first decides
whether they can have them. -/
def setUp (b : Blueprint) : Except Fault Unit := do
  Room.ask b.config.workerCount workerSize
  match nameFault? (b.workerName 0) with
  | some fault => throw fault
  | none => return ()

/-- Build the scheduler, if the settings break no rule and its threads can be set up. -/
def build (b : Blueprint) {σ : Type} [Exchange σ] : Except BuildError (Scheduler σ) := do
  let s ← (Scheduler.start? b.config b.hooks).mapError .refused
  b.setUp.mapError .broken
  return s

/-- The blueprint as text. -/
def inspect (b : Blueprint) : String :=
  Text.inspectRecord "SchedulerBuilder"
    [("config", b.config.inspect), ("custom_sensor", Text.inspectBool b.sense?.isSome),
      ("custom_formatter", Text.inspectBool b.format?.isSome),
      ("custom_classifier", Text.inspectBool b.classify?.isSome)]

end Blueprint

end Turnstile
