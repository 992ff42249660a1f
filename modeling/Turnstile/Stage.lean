import Turnstile.BodyReader
import Turnstile.Failure
import Turnstile.Operation
import Turnstile.Refusal
import Turnstile.ResponseWriter

/-!
# Stages

Where a request is on its way through the scheduler. A stage carries what is needed to go on from
it: the body or the response on its way, or the reason why the request leaves. The program is not
part of a stage, since workers take it out of the request and put it back.
-/

namespace Turnstile

/-- Why a program leaves its worker. -/
inductive Exit where
  /-- It is over and this response is sent. -/
  | respond (response : Response)
  /-- It needs the request body, with at most `limit` bytes. -/
  | readBody (limit : Nat) (next : Value → Program)
  /-- It failed. -/
  | fail (failure : Failure)

/-- How a request has left. -/
inductive Ending where
  /-- Its exchange was declared over. -/
  | completed
  /-- Its exchange broke off when it was declared over. -/
  | broken
  /-- It was refused. -/
  | refused (reason : Refusal)
  deriving DecidableEq, Repr

/-- How a request has left, by what its exchange said when it was declared over, if it was. -/
def Ending.ofFinish : Option Bool → Ending
  | some false => .broken
  | _ => .completed

/-- Where a request is. -/
inductive Stage where
  /-- It has arrived and asks for a slot. -/
  | arriving
  /-- It waits in the queue. -/
  | queued
  /-- It was taken out of the queue to be refused, because the scheduler was stopped. -/
  | drained
  /-- It holds a slot and waits for a worker to pick it up. -/
  | ready
  /-- It holds a slot and runs. -/
  | running
  /-- It holds a slot and stands at a gate. -/
  | gated
  /-- It holds a slot and is about to give it back. -/
  | leaving (exit : Exit)
  /-- It has given its slot back and is about to do what it left for. -/
  | departed (exit : Exit)
  /-- It waits for its body. -/
  | reading (reader : BodyReader) (next : Value → Program)
  /-- It waits for its response to be written. -/
  | writing (writer : ResponseWriter)
  /-- It has its body and asks for a slot again. -/
  | returning
  /-- It failed and is about to be answered with an error. -/
  | failing (failure : Failure)
  /-- It has been answered and is about to leave. -/
  | finishing
  /-- It is about to be refused; `admitted` says whether it had been accepted before. -/
  | refusing (reason : Refusal) (admitted : Bool)
  /-- It has left. -/
  | gone (ending : Ending)
  /-- The transport forgot it while it waited. -/
  | lost

namespace Stage

/-- The request waits in the queue. -/
def isQueued : Stage → Bool
  | .queued => true
  | _ => false

/-- The request was refused or has left. -/
def isGone : Stage → Bool
  | .gone _ => true
  | _ => false

/-- Give a waiting request a slot. -/
def promoted : Stage → Stage
  | .queued => .ready
  | stage => stage

/-- Refuse a waiting request that was to be given a slot. -/
def barred (reason : Refusal) : Stage → Stage
  | .queued => .refusing reason true
  | stage => stage

/-- Take a waiting request out of the queue to refuse it. -/
def dismissed : Stage → Stage
  | .queued => .drained
  | stage => stage

end Stage

end Turnstile
