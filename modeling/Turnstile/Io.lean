import Turnstile.Bytes
import Turnstile.Fault
import Turnstile.Text.Inspect

/-!
# Transport events and errors

What a transport reports while a body is read or a response is written, and the errors its calls
end with.
-/

namespace Turnstile

/-- The kinds of transport errors. -/
inductive IoErrorKind where
  | connectionReset
  | brokenPipe
  | timedOut
  | unexpectedEof
  | other
  deriving DecidableEq, Repr

/-- The name of a kind. -/
def IoErrorKind.name : IoErrorKind → String
  | .connectionReset => "ConnectionReset"
  | .brokenPipe => "BrokenPipe"
  | .timedOut => "TimedOut"
  | .unexpectedEof => "UnexpectedEof"
  | .other => "Other"

/-- An error of the transport. -/
structure IoError where
  /-- Its kind. -/
  kind : IoErrorKind
  /-- Its wording. -/
  message : String
  deriving DecidableEq, Repr

namespace IoError

/-- The error as text. -/
def inspect (e : IoError) : String :=
  Text.inspectRecord "Custom" [("kind", e.kind.name), ("error", Text.quote e.message)]

/-- A call of the transport broke off. -/
def ofFault (fault : Fault) : IoError := ⟨.other, "transport panicked: " ++ fault.message⟩

end IoError

/-- Progress reported by the transport. -/
inductive IoEvent where
  /-- A piece of the request body. -/
  | data (chunk : Bytes)
  /-- The request body is complete. -/
  | allRead
  /-- The response body may be written. -/
  | writable
  /-- The connection failed. -/
  | error (e : IoError)
  deriving DecidableEq, Repr

/-- The event as text. -/
def IoEvent.inspect : IoEvent → String
  | .data chunk =>
    Text.inspectTuple "DataAvailable" [Text.inspectList (chunk.map fun b ↦ toString b.toNat)]
  | .allRead => "AllDataRead"
  | .writable => "WritePossible"
  | .error e => Text.inspectTuple "Error" [e.inspect]

end Turnstile
