import Turnstile.Io

/-!
# Inboxes

The events that the transport reported for one phase of one request, reading its body or writing
its response, and that have not been looked at. Once the phase is over the inbox is closed and
events for it are ignored.
-/

namespace Turnstile

/-- The phases in which a request waits for the transport. -/
inductive Direction where
  /-- Its body is read. -/
  | read
  /-- Its response is written. -/
  | write
  deriving DecidableEq, Repr

/-- The events of one phase. -/
structure Inbox where
  /-- The events to look at, oldest first. -/
  events : List IoEvent
  /-- The phase is over. -/
  closed : Bool
  deriving DecidableEq, Repr

namespace Inbox

/-- The inbox of a phase that has just begun. -/
def empty : Inbox := ⟨[], false⟩

/-- Put an event in, unless the phase is over. -/
def push (b : Inbox) (event : IoEvent) : Inbox :=
  if b.closed then b else { b with events := b.events ++ [event] }

/-- Put events in, unless the phase is over. -/
def deliver (b : Inbox) (events : List IoEvent) : Inbox :=
  if b.closed then b else { b with events := b.events ++ events }

/-- Take out the oldest event. -/
def pop? (b : Inbox) : Option (IoEvent × Inbox) :=
  match b.events with
  | event :: events => some (event, { b with events })
  | [] => none

/-- The phase is over: events not looked at are given up. -/
def close (_ : Inbox) : Inbox := ⟨[], true⟩

/-- The inbox of a phase that ended before it began. -/
def ended : Inbox := empty.close

theorem pop?_eq_some {b rest : Inbox} {event : IoEvent} (h : b.pop? = some (event, rest)) :
    b.events = event :: rest.events ∧ rest.closed = b.closed := by
  unfold pop? at h
  split at h
  next events hevents =>
    cases h
    exact ⟨hevents, rfl⟩
  · cases h

theorem deliver_of_open {b : Inbox} (h : b.closed = false) (events : List IoEvent) :
    b.deliver events = { b with events := b.events ++ events } :=
  if_neg (Bool.eq_false_iff.mp h)

/-- The inbox as text. -/
def inspect (b : Inbox) : String :=
  Text.inspectRecord "IoHandle"
    [("pending_events", toString b.events.length), ("closed", Text.inspectBool b.closed)]

end Inbox

end Turnstile
