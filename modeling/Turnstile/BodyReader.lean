import Turnstile.Io
import Turnstile.Journal

/-!
# Reading a request body

The reader collects the pieces of a body up to a limit, one event of the transport at a time.
-/

namespace Turnstile

/-- A request body on its way. -/
structure BodyReader where
  /-- The most bytes the body may have. -/
  limit : Nat
  /-- The bytes that have arrived. -/
  buffer : Journal UInt8
  deriving DecidableEq, Repr

namespace BodyReader

/-- What an event meant for the body. -/
inductive Progress where
  /-- More events are needed. -/
  | pending
  /-- The body is complete. -/
  | complete (body : Bytes)
  /-- The body exceeds the limit. -/
  | limitExceeded (limit : Nat)
  /-- The transport failed. -/
  | failed (e : IoError)
  deriving DecidableEq, Repr

/-- A reader for at most `limit` bytes. -/
def new (limit : Nat) : BodyReader := ⟨limit, .empty⟩

/-- Take one event. A piece that would exceed the limit is not kept, and a complete body is handed
over. -/
def advance (r : BodyReader) : IoEvent → Progress × BodyReader
  | .data chunk =>
    if r.limit < r.buffer.size + chunk.length then (.limitExceeded r.limit, r)
    else (.pending, { r with buffer := r.buffer ++ chunk })
  | .allRead => (.complete r.buffer.toList, { r with buffer := .empty })
  | .writable => (.pending, r)
  | .error e => (.failed e, r)

end BodyReader

end Turnstile
