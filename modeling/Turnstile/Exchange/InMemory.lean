import Turnstile.Exchange
import Turnstile.Journal
import Turnstile.Text.Utf8

/-!
# The exchange in memory

An exchange that holds the request body it will deliver and records what it is asked to send. It
can be told to fail, and to take only so many writes before it has to become writable again.
-/

namespace Turnstile

/-- What an exchange was asked to send. -/
structure Recorded where
  /-- The status of the response. -/
  status : Option Nat
  /-- The headers of the response. -/
  headers : Pairs
  /-- All pieces of the body, joined. -/
  body : Journal UInt8
  /-- The size of each piece. -/
  writes : Journal Nat
  /-- The last response sent past the usual way. -/
  fallback : Option Response
  /-- Why the exchange was refused. -/
  rejected : Option String
  /-- How often the exchange was declared over. -/
  completions : Nat
  deriving Repr

namespace Recorded

/-- Nothing sent. -/
def empty : Recorded := ⟨none, [], .empty, .empty, none, none, 0⟩

/-- The exchange is over or refused. -/
def isDone (r : Recorded) : Bool := 0 < r.completions || r.rejected.isSome

/-- The body as text. -/
def bodyText (r : Recorded) : String := Text.decodeLossy r.body.toList

/-- The values of a response header. -/
def header (r : Recorded) (name : String) : List String := valuesBy headerKey name r.headers

/-- The record as text. -/
def inspect (r : Recorded) : String :=
  Text.inspectRecord "Recorded"
    [("status", Text.inspectOption (r.status.map toString)),
      ("headers", Text.inspectPairs r.headers),
      ("body", Text.inspectList (r.body.toList.map fun b ↦ toString b.toNat)),
      ("writes", Text.inspectList (r.writes.toList.map toString)),
      ("fallback", Text.inspectOption (r.fallback.map Response.inspect)),
      ("rejected", Text.inspectOption (r.rejected.map Text.quote)),
      ("completions", toString r.completions)]

end Recorded

/-- An exchange in memory. -/
structure InMemory where
  /-- The metadata of the request. -/
  metadata : Metadata
  /-- The pieces in which the request body is delivered. -/
  chunks : List Bytes
  /-- The error reported after the pieces instead of the end of the body. -/
  readFailure : Option IoErrorKind
  /-- The error of every write. -/
  writeFailure : Option IoErrorKind
  /-- How many more responses past the usual way will fail. -/
  fallbackFailures : Nat
  /-- How many writes are taken each time the exchange becomes writable, if they are counted. -/
  writesPerReady : Option Nat
  /-- How many writes are taken from now on. -/
  budget : UInt64
  /-- Somebody waits for the exchange to become writable. -/
  attached : Bool
  /-- How often the exchange has yet to become writable again. -/
  refills : Nat
  /-- What it was asked to send. -/
  recorded : Recorded
  deriving Repr

namespace InMemory

/-- The most writes that can be counted. -/
def unlimited : UInt64 := 18446744073709551615

/-- An exchange with an empty body that takes every write. -/
def new (m : Metadata) : InMemory where
  metadata := m
  chunks := []
  readFailure := none
  writeFailure := none
  fallbackFailures := 0
  writesPerReady := none
  budget := unlimited
  attached := false
  refills := 0
  recorded := .empty

/-- Take only `count` writes before the exchange has to become writable again, where zero counts
as one. -/
def limitWrites (x : InMemory) (count : Nat) : InMemory :=
  { x with writesPerReady := some (max count 1) }

/-- The budget of a fresh round of writes. -/
def freshBudget (x : InMemory) : UInt64 :=
  match x.writesPerReady with
  | some count => .ofNat count
  | none => unlimited

/-- Get ready for a fresh round of writes. -/
def prime (x : InMemory) : InMemory := { x with budget := x.freshBudget }

/-- A write would be taken. -/
def ready (x : InMemory) : Bool := 0 < x.budget

/-- The events with which the body is delivered. -/
def bodyEvents (x : InMemory) : List IoEvent :=
  x.chunks.map .data ++
    [match x.readFailure with
      | some kind => .error ⟨kind, "scripted read failure"⟩
      | none => .allRead]

/-- Take a write. If writes are counted and this was the last of the round, whoever waits is told
later that the next round begins. -/
def takeWrite (x : InMemory) (chunk : Bytes) : Reply × InMemory :=
  match x.writeFailure with
  | some kind => (.error ⟨kind, "scripted write failure"⟩, x)
  | none =>
    let recorded := { x.recorded with
      writes := x.recorded.writes.push chunk.length, body := x.recorded.body ++ chunk }
    let x := { x with recorded }
    match x.writesPerReady with
    | none => (.ok, x)
    | some _ =>
      let last := x.budget = 1 && x.attached
      (.ok, { x with budget := x.budget - 1, refills := if last then x.refills + 1 else x.refills })

/-- Take a response past the usual way. -/
def takeFallback (x : InMemory) (response : Response) : Reply × InMemory :=
  if 0 < x.fallbackFailures then
    (.error ⟨.brokenPipe, "scripted fallback failure"⟩,
      { x with fallbackFailures := x.fallbackFailures - 1 })
  else (.ok, { x with recorded := { x.recorded with fallback := some response } })

instance : Exchange InMemory where
  metadata x := x.metadata
  readBody x := (.ok, x.bodyEvents, x)
  startResponse x status headers :=
    (.ok, [.writable],
      { x.prime with
        attached := true, recorded := { x.recorded with status := some status, headers } })
  isReady x := (if x.ready then .ready else .busy, x)
  write := takeWrite
  sendFallback := takeFallback
  complete x :=
    let recorded := { x.recorded with completions := x.recorded.completions + 1 }
    (none, { x with attached := false, recorded })
  reject x reason :=
    let recorded := { x.recorded with rejected := some reason.message }
    (none, { x with attached := false, recorded })
  wake x :=
    if 0 < x.refills then some ([.writable], { x.prime with refills := x.refills - 1 }) else none

/-- The exchange as text. -/
def inspect (x : InMemory) : String :=
  Text.inspectPartial "InMemoryExchange"
    [("metadata", x.metadata.inspect), ("chunks", toString x.chunks.length),
      ("writes_per_ready", Text.inspectOption (x.writesPerReady.map toString))]

/-- What the exchange was asked to send, as text. -/
def inspectProbe (x : InMemory) : String := Text.inspectTuple "ExchangeProbe" [x.recorded.inspect]

end InMemory

end Turnstile
