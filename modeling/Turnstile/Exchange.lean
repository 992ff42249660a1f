import Turnstile.Metadata
import Turnstile.Refusal
import Turnstile.Response

/-!
# Exchanges

An exchange is one request and its response as the transport sees them. It is a state of some
type `σ` with the calls that the scheduler makes on it. A call is user code: it may fail or break
off. While the transport reads or writes it reports events; those it reports inside a call come
with the result of the call, and later ones through `wake` or from outside.
-/

namespace Turnstile

/-- How a call on an exchange ends. -/
inductive Reply where
  /-- Well. -/
  | ok
  /-- With an error. -/
  | error (e : IoError)
  /-- It broke off. -/
  | fault (fault : Fault)
  deriving DecidableEq, Repr

/-- The error a call ended with, where breaking off counts as an error too. -/
def Reply.error? : Reply → Option IoError
  | .ok => none
  | .error e => some e
  | .fault f => some (.ofFault f)

/-- What an exchange says when it is asked whether a write would be taken at once. -/
inductive Readiness where
  /-- It would. -/
  | ready
  /-- It would not. -/
  | busy
  /-- The call broke off. -/
  | fault (fault : Fault)
  deriving DecidableEq, Repr

/-- The calls on the states of an exchange. Each gives the state after it. -/
class Exchange (σ : Type) where
  /-- The metadata of the request. -/
  metadata : σ → Metadata
  /-- Start to read the request body. -/
  readBody : σ → Reply × List IoEvent × σ
  /-- Commit status and headers and get ready for the response body. -/
  startResponse : σ → Nat → Pairs → Reply × List IoEvent × σ
  /-- Say whether a write would be taken at once. -/
  isReady : σ → Readiness × σ
  /-- Write a piece of the response body. -/
  write : σ → Bytes → Reply × σ
  /-- Send a whole response past the usual way, because the usual way failed. -/
  sendFallback : σ → Response → Reply × σ
  /-- The exchange is over. -/
  complete : σ → Option Fault × σ
  /-- The exchange is refused. -/
  reject : σ → Refusal → Option Fault × σ
  /-- What the transport does on its own while it is waited for, if there is anything to do. -/
  wake : σ → Option (List IoEvent × σ)

/-- A call on an exchange and how it ended. -/
inductive Call where
  | readBody (reply : Reply)
  | startResponse (status : Nat) (headers : Pairs) (reply : Reply)
  | isReady (answer : Readiness)
  | write (chunk : Bytes) (reply : Reply)
  | sendFallback (response : Response) (reply : Reply)
  | complete (fault? : Option Fault)
  | reject (reason : Refusal) (fault? : Option Fault)
  deriving DecidableEq

end Turnstile
