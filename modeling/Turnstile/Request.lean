import Turnstile.Dossier
import Turnstile.Hooks
import Turnstile.Inbox
import Turnstile.Rank
import Turnstile.Routine.Run
import Turnstile.Stage

/-!
# Requests

A request with its exchange and its dossier, and what happens to it while no other request is
concerned: a turn of its program, the calls on its exchange, and how it ends. What the scheduler
has to decide, who gets a slot and who is refused, is in `Turnstile.Scheduler`.

Everything that happens is told as a list of happenings, in order.
-/

namespace Turnstile

/-- Something that happened to a request. -/
inductive Happening where
  /-- Its program left a note. -/
  | note (text : String)
  /-- Something happened to its cleaners. -/
  | cleaner (event : Cleanup.Event String)
  /-- A call was made on its exchange. -/
  | call (c : Call)
  /-- The sensor was told of an event, and broke off with the fault, if any. -/
  | sensed (event : SensorEvent) (fault? : Option Fault)
  deriving DecidableEq

/-- A request. -/
structure Request (σ : Type) where
  /-- Its position in the order of arrival. -/
  ordinal : Nat
  /-- The file kept on it. -/
  dossier : Dossier
  /-- Its exchange. -/
  exchange : σ
  /-- Its program as far as it has run, unless a worker has taken it. -/
  program : Option Program
  /-- Where it is. -/
  stage : Stage
  /-- It is over: its cleaners and its exchange are left alone from now on. -/
  closed : Bool
  /-- The events of the last time its body was read, if the transport knows of it. -/
  reads : Option Inbox
  /-- The events of its response, if the transport knows of it. -/
  writes : Option Inbox

namespace Request

variable {σ : Type} [Exchange σ]

/-- A request that has just arrived. -/
def new (ordinal : Nat) (qos : Qos) (exchange : σ) (program : Program) : Request σ where
  ordinal := ordinal
  dossier := .new qos (Exchange.metadata exchange).path
  exchange := exchange
  program := some program
  stage := .arriving
  closed := false
  reads := none
  writes := none

/-- The metadata of a request. -/
def metadata (r : Request σ) : Metadata := Exchange.metadata r.exchange

/-- The place of a request among those that wait. -/
def rank (r : Request σ) : Rank := ⟨r.dossier.qos, r.ordinal⟩

/-- Take over a dossier, telling what its cleaners did since. -/
def takeOver (r : Request σ) (d : Dossier) : Request σ × List Happening :=
  ({ r with dossier := d },
    (d.cleaners.history.since r.dossier.cleaners.history).map .cleaner)

/-! ## The program -/

/-- Put a program back to go on with, in the stage given. -/
def keep (r : Request σ) (stage : Stage) (p : Program) : Request σ :=
  { r with program := some p, stage }

/-- Put a program back that goes on with `next` for the value that answers an operation. -/
def resume (r : Request σ) (stage : Stage) (next : Value → Program) (v : Value) : Request σ :=
  r.keep stage (.flatMap (.pure v) next)

/-- Carry out an action of the program's own code and go on with `next`. -/
def act (r : Request σ) (next : Value → Program) : Action → Request σ × List Happening
  | .note text => (r.resume .running next .unit, [.note text])
  | .gate => (r.resume .gated next .unit, [])
  | .look handle =>
    (r.resume .running next (.flag (r.dossier.cleaners.isStarted handle)), [])

/-- Go on as an operation leads to, with `next` for what comes behind it. -/
def react (r : Request σ) (next : Value → Program) : Reaction → Request σ × List Happening
  | .resume v d =>
    let (r, told) := r.takeOver d
    (r.resume .running next v, told)
  | .enter p d =>
    let (r, told) := r.takeOver d
    (r.keep .running (.flatMap p next), told)
  | .respond response => ({ r with stage := .leaving (.respond response) }, [])
  | .readBody limit => ({ r with stage := .leaving (.readBody limit next) }, [])
  | .fault f d =>
    let (r, told) := r.takeOver d
    ({ r with stage := .leaving (.fail (.program f)) }, told)
  | .act action => r.act next action

/-- Go on from where a run of the program stopped. -/
def proceed (r : Request σ) : Routine.Outcome Operation Value → Request σ × List Happening
  | .finished (.response response) => ({ r with stage := .leaving (.respond response) }, [])
  | .finished _ => ({ r with stage := .leaving (.fail .noResponse) }, [])
  | .faulted f => ({ r with stage := .leaving (.fail (.program f)) }, [])
  | .suspended op next => r.react next (r.dossier.answer r.metadata op)

/-- Take the program, run it up to where it stops, and go on from there as its operation says. -/
def turn (r : Request σ) : Request σ × List Happening :=
  match r.program with
  | none => ({ r with stage := .leaving (.fail .noProgram) }, [])
  | some p => { r with program := none }.proceed p.run

/-! ## The transport -/

/-- Start to read the body, with at most `limit` bytes. -/
def beginRead (r : Request σ) (limit : Nat) (next : Value → Program) :
    Request σ × List Happening :=
  match Exchange.readBody r.exchange with
  | (reply, events, exchange) =>
    match reply.error? with
    | some e =>
      ({ r with exchange, reads := some .ended, stage := .failing (.readStart e) },
        [.call (.readBody reply)])
    | none =>
      ({ r with
        exchange, reads := some (Inbox.empty.deliver events), stage := .reading (.new limit) next },
        [.call (.readBody reply)])

/-- Start the response, with the headers and cookies that the program added, and write its body in
pieces of `chunkSize` bytes. -/
def beginResponse (r : Request σ) (chunkSize : Nat) (response : Response) :
    Request σ × List Happening :=
  let (response, dossier) := r.dossier.assemble response
  match Exchange.startResponse r.exchange response.status response.headers with
  | (reply, events, exchange) =>
    let told := [.call (.startResponse response.status response.headers reply)]
    match reply.error? with
    | some e =>
      ({ r with
        dossier, exchange, writes := some .ended, stage := .failing (.responseStart e) }, told)
    | none =>
      ({ r with
        dossier, exchange, writes := some (Inbox.empty.deliver events)
        stage := .writing (.new response.body chunkSize) }, told)

/-- Do what the program left its worker for. -/
def depart (r : Request σ) (maxBodyBytes chunkSize : Nat) : Exit → Request σ × List Happening
  | .respond response => r.beginResponse chunkSize response
  | .readBody limit next => r.beginRead (min limit maxBodyBytes) next
  | .fail failure => ({ r with stage := .failing failure }, [])

/-- The phase in which the body is read is over, and the request goes on to `stage`. -/
def endRead (r : Request σ) (stage : Stage) : Request σ :=
  { r with reads := r.reads.map .close, stage }

/-- The phase in which the response is written is over, and the request goes on to `stage`. -/
def endWrite (r : Request σ) (stage : Stage) : Request σ :=
  { r with writes := r.writes.map .close, stage }

/-- Look at one event while the body is read. -/
def receiveRead (r : Request σ) (reader : BodyReader) (next : Value → Program)
    (event : IoEvent) : Request σ :=
  match reader.advance event with
  | (.pending, reader) => { r with stage := .reading reader next }
  | (.complete body, _) => (r.endRead .returning).resume .returning next (.bytes body)
  | (.limitExceeded limit, _) => r.endRead (.departed (.respond (.tooLarge limit)))
  | (.failed e, _) => r.endRead (.failing (.read e))

/-- Look at one event while the response is written. -/
def receiveWrite (r : Request σ) (writer : ResponseWriter) (event : IoEvent) :
    Request σ × List Happening :=
  match writer.advance event r.exchange with
  | (.pending, writer, exchange, calls) =>
    ({ r with exchange, stage := .writing writer }, calls.map .call)
  | (.done, _, exchange, calls) =>
    ({ r with exchange }.endWrite .finishing, calls.map .call)
  | (.failed e, _, exchange, calls) =>
    ({ r with exchange }.endWrite (.failing (.write e)), calls.map .call)

/-- The oldest event not looked at of the phase that the request is in, and the request without
it. -/
def nextEvent? (r : Request σ) : Option (IoEvent × Request σ) :=
  match r.stage with
  | .reading _ _ =>
    (r.reads >>= Inbox.pop?).map fun (event, b) ↦ (event, { r with reads := some b })
  | .writing _ =>
    (r.writes >>= Inbox.pop?).map fun (event, b) ↦ (event, { r with writes := some b })
  | _ => none

/-- Look at one event of the phase that the request is in. -/
def receive (r : Request σ) (event : IoEvent) : Request σ × List Happening :=
  match r.stage with
  | .reading reader next => (r.receiveRead reader next event, [])
  | .writing writer => r.receiveWrite writer event
  | _ => (r, [])

/-- The inbox for a direction. -/
def inbox? (r : Request σ) : Direction → Option Inbox
  | .read => r.reads
  | .write => r.writes

/-- Events reported by the transport. -/
def deliver (r : Request σ) (events : List IoEvent) : Direction → Request σ
  | .read => { r with reads := r.reads.map (·.deliver events) }
  | .write => { r with writes := r.writes.map (·.deliver events) }

/-! ## The ends -/

/-- Tell the sensor of an event. That it may break off changes nothing. -/
def report (hooks : Hooks) (event : SensorEvent) : Happening := .sensed event (hooks.sense event)

/-- What the sweep tells of one event: the sensor hears of every cleaner that broke off. -/
def tellSwept (hooks : Hooks) (ordinal : Nat) : Cleanup.Event String → List Happening
  | .failed id f =>
    [.cleaner (.failed id f),
      report hooks (.cleanupFailed ordinal (f.messageWith hooks.kindName))]
  | event => [.cleaner event]

/-- Run the cleaners that have not been started. -/
def sweep (hooks : Hooks) (r : Request σ) : Request σ × List Happening :=
  let (_, cleaners) := r.dossier.cleaners.sweep
  ({ r with dossier := { r.dossier with cleaners } },
    (cleaners.history.since r.dossier.cleaners.history).flatMap (tellSwept hooks r.ordinal))

/-- Send the response past the usual way, and the last resort if that fails. -/
def sendError (r : Request σ) (response : Response) : Request σ × List Happening :=
  match Exchange.sendFallback r.exchange response with
  | (reply, exchange) =>
    match reply.error? with
    | none => ({ r with exchange }, [.call (.sendFallback response reply)])
    | some _ =>
      match Exchange.sendFallback exchange .minimal with
      | (lastReply, exchange) =>
        ({ r with exchange },
          [.call (.sendFallback response reply), .call (.sendFallback .minimal lastReply)])

/-- Answer a request that failed with an error. -/
def fail (hooks : Hooks) (r : Request σ) (failure : Failure) : Request σ × List Happening :=
  let event := .connectionError r.ordinal (failure.message hooks.kindName)
  let (r, told) := r.sendError (hooks.errorResponse r.ordinal r.metadata)
  ({ r with stage := .finishing }, report hooks event :: told)

/-- Run the cleaners and declare the exchange over. Only the first end of a request does anything;
it says whether the exchange took it well. -/
def finish (hooks : Hooks) (r : Request σ) : Option Bool × Request σ × List Happening :=
  if r.closed then (none, r, [])
  else
    let (r, swept) := sweep hooks { r with closed := true }
    match Exchange.complete r.exchange with
    | (fault?, exchange) =>
      (some fault?.isNone, { r with exchange }, swept ++ [.call (.complete fault?)])

/-- Refuse the exchange and run the cleaners; an exchange that breaks off ends this. Only the first
end of a request does anything. -/
def refuse (hooks : Hooks) (r : Request σ) (reason : Refusal) : Request σ × List Happening :=
  if r.closed then (r, [])
  else
    let told := report hooks (.rejected r.ordinal reason.message)
    match Exchange.reject r.exchange reason with
    | (some f, exchange) =>
      ({ r with closed := true, exchange }, [told, .call (.reject reason (some f))])
    | (none, exchange) =>
      let (r, swept) := sweep hooks { r with closed := true, exchange }
      (r, told :: .call (.reject reason none) :: swept)

/-- Run the cleaners of a request that nobody holds any more. Only the first end of a request does
anything. -/
def drop (hooks : Hooks) (r : Request σ) : Request σ × List Happening :=
  if r.closed then (r, []) else sweep hooks { r with closed := true }

end Request

end Turnstile
