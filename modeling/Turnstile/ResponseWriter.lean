import Turnstile.Exchange

/-!
# Writing a response body

The writer hands a body to the exchange in pieces of a fixed size, only the last of which may be
shorter, and asks before each piece whether the exchange is ready for it.
-/

namespace Turnstile

/-- A response body on its way. -/
structure ResponseWriter where
  /-- What has not been written yet. -/
  unsent : Bytes
  /-- The largest piece written at once. -/
  chunkSize : Nat
  /-- A piece has at least one byte. -/
  chunkSize_pos : 0 < chunkSize

namespace ResponseWriter

/-- What an event meant for the body. -/
inductive Progress where
  /-- The exchange must become writable again. -/
  | pending
  /-- All of the body is written. -/
  | done
  /-- The transport failed. -/
  | failed (e : IoError)
  deriving DecidableEq, Repr

/-- A writer for `body` in pieces of `chunkSize` bytes, where zero counts as one. -/
def new (body : Bytes) (chunkSize : Nat) : ResponseWriter := ⟨body, max chunkSize 1, by omega⟩

/-- How many bytes have not been written yet. -/
def remaining (w : ResponseWriter) : Nat := w.unsent.length

/-- What writing leads to. -/
structure Written (σ : Type) where
  /-- What it means for the body. -/
  progress : Progress
  /-- What has not been written yet. -/
  unsent : Bytes
  /-- The exchange after it. -/
  exchange : σ
  /-- The calls made, in order. -/
  calls : List Call

/-- Write pieces of `chunkSize` bytes until nothing is left or the exchange does not take more. -/
def writeAll {σ : Type} [Exchange σ] (chunkSize : Nat) (pos : 0 < chunkSize) (unsent : Bytes)
    (exchange : σ) : Written σ :=
  match unsent with
  | [] => ⟨.done, [], exchange, []⟩
  | first :: more =>
    match Exchange.isReady exchange with
    | (.fault f, exchange) =>
      ⟨.failed (.ofFault f), first :: more, exchange, [.isReady (.fault f)]⟩
    | (.busy, exchange) => ⟨.pending, first :: more, exchange, [.isReady .busy]⟩
    | (.ready, exchange) =>
      let chunk := (first :: more).take chunkSize
      match Exchange.write exchange chunk with
      | (reply, exchange) =>
        match reply.error? with
        | some e =>
          ⟨.failed e, first :: more, exchange, [.isReady .ready, .write chunk reply]⟩
        | none =>
          let rest := writeAll chunkSize pos ((first :: more).drop chunkSize) exchange
          { rest with calls := .isReady .ready :: .write chunk reply :: rest.calls }
termination_by unsent.length
decreasing_by simp only [List.length_drop, List.length_cons]; omega

/-- Take one event, writing to the exchange if it is writable. -/
def advance {σ : Type} [Exchange σ] (w : ResponseWriter) (event : IoEvent) (exchange : σ) :
    Progress × ResponseWriter × σ × List Call :=
  match event with
  | .writable =>
    let written := writeAll w.chunkSize w.chunkSize_pos w.unsent exchange
    (written.progress, { w with unsent := written.unsent }, written.exchange, written.calls)
  | .error e => (.failed e, w, exchange, [])
  | .data _ | .allRead => (.pending, w, exchange, [])

end ResponseWriter

end Turnstile
