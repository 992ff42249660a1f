import Turnstile.Room

/-!
# Sensors

A sensor is told of failures that reach no caller. It is user code and may break off; whoever
reports to it contains that (`Sensor.report`). `EventBuffer` is the sensor that keeps what it is
told.
-/

namespace Turnstile

/-- Something a sensor is told. -/
inductive SensorEvent where
  /-- A request failed. -/
  | connectionError (ordinal : Nat) (message : String)
  /-- A request was refused. -/
  | rejected (ordinal : Nat) (reason : String)
  /-- A cleaner broke off in the final sweep. -/
  | cleanupFailed (ordinal : Nat) (message : String)
  deriving DecidableEq, Repr

/-- A sensor with states of type `S`: told of an event, it may break off, and is left in a state. -/
abbrev Sensor (S : Type) := SensorEvent → S → Option Fault × S

/-- Tell a sensor of an event and contain what it raises: all that remains is the state in which it
is left. -/
def Sensor.report {S : Type} (sensor : Sensor S) (event : SensorEvent) (s : S) : S :=
  (sensor event s).2

/-- A buffer for events that makes room for a new one by dropping the oldest. -/
structure EventBuffer where
  /-- At how many events room has to be made. -/
  maxEvents : Nat
  /-- The events kept, oldest first. -/
  events : List SensorEvent
  deriving Repr

namespace EventBuffer

/-- A buffer without events. -/
def empty (maxEvents : Nat) : EventBuffer := ⟨maxEvents, []⟩

/-- How many bytes an event takes. -/
def eventSize : Nat := 40

/-- A buffer without events, with room for all it may keep. -/
def reserve (maxEvents : Nat) : Except Fault EventBuffer := do
  Room.ask maxEvents eventSize
  return empty maxEvents

/-- Keep an event: the oldest goes if the buffer is full, then the new one is added. -/
def record (b : EventBuffer) (event : SensorEvent) : EventBuffer :=
  if b.maxEvents ≤ b.events.length then { b with events := b.events.drop 1 ++ [event] }
  else { b with events := b.events ++ [event] }

/-- The buffer as a sensor. Keeping an event never breaks off. -/
def sensor : Sensor EventBuffer := fun event b ↦ (none, b.record event)

end EventBuffer

end Turnstile
