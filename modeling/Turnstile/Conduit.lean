import Turnstile.Request

/-!
# Conduits

How threads hand a waiting request to one another. While a request waits for the transport it is
parked beside the inbox of its phase. Any thread may put an event into the inbox; it then takes the
request, if it is parked, and applies events to it until the inbox is empty or the phase is over.
Every access to the inbox or to the parked request is a step of its own, so threads interleave
between any two of them. A thread that puts in an event while it applies another one counts as two.
-/

namespace Turnstile

/-- The inbox of a phase and the request that waits in it. -/
structure Conduit (P : Type) where
  /-- The events that have not been applied. -/
  inbox : Inbox
  /-- The request, unless a thread holds it. -/
  parked : Option P

namespace Conduit

/-- What a thread is doing. -/
inductive Task (P : Type) where
  /-- Nothing here. -/
  | away
  /-- It has the request from before the phase and is about to park it. -/
  | parking (p : P)
  /-- It is about to take the request, if it is parked. -/
  | taking
  /-- It holds the request and is about to take an event out. -/
  | holding (p : P)
  /-- It holds the request and applies an event to it. -/
  | applying (p : P) (event : IoEvent)
  /-- It found no event and is about to park the request again. -/
  | yielding (p : P)
  /-- It has parked the request again and is about to look whether the inbox is still empty. -/
  | checking
  /-- The phase is over and it is about to close the inbox. -/
  | closing
  /-- It has closed the inbox and sees to what comes of the request. -/
  | exiting

namespace Task

variable {P : Type}

/-- The thread holds the request. -/
def holds : Task P → Bool
  | .parking _ | .holding _ | .applying _ _ | .yielding _ | .closing => true
  | _ => false

/-- The thread is at the conduit. The one that has the request at first is not before it parks
it. -/
def isInside : Task P → Bool
  | .away | .parking _ => false
  | _ => true

end Task

/-- A conduit, the threads at it, and what happened so far. -/
structure Crowd (P : Type) where
  /-- The conduit. -/
  conduit : Conduit P
  /-- What each thread is doing. -/
  task : Nat → Task P
  /-- The request was parked. -/
  begun : Bool
  /-- The events that were put in, in order. -/
  accepted : List IoEvent
  /-- The events that were applied, in order. -/
  applied : List IoEvent

namespace Crowd

variable {P : Type}

/-- A new conduit whose request is still held by the thread `owner`. -/
def new (owner : Nat) (p : P) : Crowd P where
  conduit := ⟨.empty, none⟩
  task i := if i = owner then .parking p else .away
  begun := false
  accepted := []
  applied := []

/-- The thread `i` goes on to another task. -/
def turn (c : Crowd P) (i : Nat) (task : Task P) : Crowd P :=
  { c with task := fun j ↦ if j = i then task else c.task j }

/-- The request is put into its place. -/
def park (c : Crowd P) (p : P) : Crowd P :=
  { c with conduit := { c.conduit with parked := some p }, begun := true }

/-- The request is taken out of its place. -/
def unpark (c : Crowd P) : Crowd P := { c with conduit := { c.conduit with parked := none } }

/-- An event is put into the inbox. -/
def push (c : Crowd P) (event : IoEvent) : Crowd P :=
  { c with
    conduit := { c.conduit with inbox := c.conduit.inbox.push event }
    accepted := c.accepted ++ [event] }

/-- The inbox is as given after an event was taken out. -/
def pop (c : Crowd P) (rest : Inbox) : Crowd P :=
  { c with conduit := { c.conduit with inbox := rest } }

/-- An event was applied. -/
def apply (c : Crowd P) (event : IoEvent) : Crowd P := { c with applied := c.applied ++ [event] }

/-- The inbox is closed. -/
def close (c : Crowd P) : Crowd P :=
  { c with conduit := { c.conduit with inbox := c.conduit.inbox.close } }

end Crowd

variable {P : Type}

/-- One step of one thread. `apply` is what an event does to the request; it gives nothing if the
phase is over by it. -/
inductive Step (apply : P → IoEvent → Option P) : Crowd P → Crowd P → Prop where
  /-- An event is put in. -/
  | push {c : Crowd P} {i : Nat} (event : IoEvent) (task : c.task i = .away)
      (opened : c.conduit.inbox.closed = false) :
      Step apply c ((c.push event).turn i .taking)
  /-- An event comes too late. -/
  | ignore {c : Crowd P} {i : Nat} (event : IoEvent) (task : c.task i = .away)
      (closed : c.conduit.inbox.closed = true) : Step apply c c
  /-- The request is parked for the first time. -/
  | park {c : Crowd P} {i : Nat} {p : P} (task : c.task i = .parking p) :
      Step apply c ((c.park p).turn i .taking)
  /-- The phase cannot be started, and the inbox is closed without the request having been
  parked. -/
  | abandon {c : Crowd P} {i : Nat} {p : P} (task : c.task i = .parking p) :
      Step apply c (c.close.turn i .away)
  /-- The request is taken. -/
  | take {c : Crowd P} {i : Nat} {p : P} (task : c.task i = .taking)
      (parked : c.conduit.parked = some p) :
      Step apply c (c.unpark.turn i (.holding p))
  /-- There is no request to take. -/
  | leave {c : Crowd P} {i : Nat} (task : c.task i = .taking) (parked : c.conduit.parked = none) :
      Step apply c (c.turn i .away)
  /-- An event is taken out. -/
  | pop {c : Crowd P} {i : Nat} {p : P} {event : IoEvent} {rest : Inbox}
      (task : c.task i = .holding p) (popped : c.conduit.inbox.pop? = some (event, rest)) :
      Step apply c ((c.pop rest).turn i (.applying p event))
  /-- There is no event to take out. -/
  | rest {c : Crowd P} {i : Nat} {p : P} (task : c.task i = .holding p)
      (popped : c.conduit.inbox.pop? = none) :
      Step apply c (c.turn i (.yielding p))
  /-- An event is applied and the phase goes on. -/
  | apply {c : Crowd P} {i : Nat} {p p' : P} {event : IoEvent} (task : c.task i = .applying p event)
      (more : apply p event = some p') :
      Step apply c ((c.apply event).turn i (.holding p'))
  /-- An event is applied and the phase is over. -/
  | finish {c : Crowd P} {i : Nat} {p : P} {event : IoEvent} (task : c.task i = .applying p event)
      (ended : apply p event = none) :
      Step apply c ((c.apply event).turn i .closing)
  /-- The inbox is closed before the request moves on. -/
  | close {c : Crowd P} {i : Nat} (task : c.task i = .closing) :
      Step apply c (c.close.turn i .exiting)
  /-- The event broke off, and nothing is left to do but to close the inbox. -/
  | breakOff {c : Crowd P} {i : Nat} (task : c.task i = .closing) :
      Step apply c (c.close.turn i .away)
  /-- The request has moved on, and the inbox is closed once more. -/
  | exit {c : Crowd P} {i : Nat} (task : c.task i = .exiting) :
      Step apply c (c.close.turn i .away)
  /-- The request is parked again. -/
  | yield {c : Crowd P} {i : Nat} {p : P} (task : c.task i = .yielding p) :
      Step apply c ((c.park p).turn i .checking)
  /-- An event was put in meanwhile. -/
  | again {c : Crowd P} {i : Nat} (task : c.task i = .checking)
      (news : c.conduit.inbox.events ≠ []) :
      Step apply c (c.turn i .taking)
  /-- No event was put in meanwhile. -/
  | done {c : Crowd P} {i : Nat} (task : c.task i = .checking)
      (quiet : c.conduit.inbox.events = []) :
      Step apply c (c.turn i .away)

/-- Some steps lead from a new conduit with the request `start` to this state. -/
inductive Reachable (apply : P → IoEvent → Option P) (start : P) : Crowd P → Prop where
  /-- A new conduit. -/
  | new (owner : Nat) : Reachable apply start (.new owner start)
  /-- One more step. -/
  | step {c c' : Crowd P} (h : Reachable apply start c) (s : Step apply c c') :
      Reachable apply start c'

end Conduit

/-- What an event does to a request that waits: it still waits, or its phase is over. -/
def Request.attend {σ : Type} [Exchange σ] (r : Request σ) (event : IoEvent) :
    Option (Request σ) :=
  match (r.receive event).1.stage with
  | .reading _ _ | .writing _ => some (r.receive event).1
  | _ => none

end Turnstile
