import Turnstile.Pool
import Turnstile.Request

/-!
# User code that raises

What a thread does with a request, with user code that raises its faults as the code of programs,
cleaners, exchanges and hooks does: a fault leaves the code that raised it, skips what that code had
still to do, and goes on outwards until something contains it (`Attempt.contain`). What was done
before stays done.

`Turnstile.Request` says what becomes of each fault and raises none. Here the faults are raised, the
places that contain them are named one by one, and an attempt is nothing but these calls in order.
That both come to the same, so that no fault is left over, is in
`Turnstile.Proofs.Request.Containment`.
-/

namespace Turnstile

/-- What a thread has in hand while it works on a request. -/
structure InHand (σ : Type) where
  /-- The pool. -/
  pool : Pool
  /-- The request. -/
  request : Request σ
  /-- What happened to the request so far, in order. -/
  told : List Happening

/-- Work on a request that may raise a fault; what was done before stays done. -/
abbrev Attempt (σ α : Type) : Type := EStateM Fault (InHand σ) α

/-- What whoever makes a call sees of how it ends: the fault is raised, the error is a value. -/
def Reply.outcome {α : Type} (reply : Reply) (a : α) : Except Fault (Except IoError α) :=
  match reply with
  | .ok => .ok (.ok a)
  | .error e => .ok (.error e)
  | .fault f => .error f

/-- What whoever asks an exchange whether it is ready sees of the answer. -/
def Readiness.outcome : Readiness → Except Fault Bool
  | .ready => .ok true
  | .busy => .ok false
  | .fault f => .error f

namespace Attempt

variable {σ α : Type}

/-! ## Faults -/

/-- End as told, with a value or by raising a fault. -/
def raising : Except Fault α → Attempt σ α
  | .ok a => pure a
  | .error f => throw f

/-- Raise a fault, if there is one. -/
def raise? (fault? : Option Fault) : Attempt σ Unit := raising (fault?.elim (.ok ()) .error)

/-- Do some work and stop the fault that leaves it. -/
def contain (work : Attempt σ α) : Attempt σ (Except Fault α) :=
  tryCatch (Except.ok <$> work) fun f ↦ pure (.error f)

/-- Make a call of the transport, where a fault counts as an error. -/
def guarded (call : Attempt σ (Except IoError α)) : Attempt σ (Except IoError α) := do
  match ← contain call with
  | .ok result => pure result
  | .error f => pure (.error (.ofFault f))

/-! ## What raises nothing -/

/-- Change the request. -/
def alter (change : Request σ → Request σ) : Attempt σ Unit :=
  modify fun w ↦ { w with request := change w.request }

/-- Change the request and tell what happened to it. -/
def act (change : Request σ → Request σ × List Happening) : Attempt σ Unit :=
  modify fun w ↦
    { w with request := (change w.request).1, told := w.told ++ (change w.request).2 }

/-- Go on to a stage. -/
def goTo (stage : Stage) : Attempt σ Unit := alter fun r ↦ { r with stage }

/-- Change the pool. -/
def count (change : Pool → Pool) : Attempt σ Unit := modify fun w ↦ { w with pool := change w.pool }

/-! ## User code -/

/-- A call on the exchange, which is told however it ends. -/
def call (make : σ → Except Fault α × Call × σ) : Attempt σ α := fun w ↦
  match make w.request.exchange with
  | (outcome, c, exchange) =>
    raising outcome
      { w with request := { w.request with exchange }, told := w.told ++ [.call c] }

/-- Start a cleaner of the request, unless it was started before. -/
def fire (depth id : Nat) : Attempt σ Bool := fun w ↦
  match w.request.dossier.cleaners.fire depth id with
  | (outcome, cleaners) =>
    let (r, told) := w.request.takeOver { w.request.dossier with cleaners }
    raising outcome { w with request := r, told := w.told ++ told }

/-- Tell the sensor of an event. -/
def sense (hooks : Hooks) (event : SensorEvent) : Attempt σ Unit := do
  act fun r ↦ (r, [.sensed event (hooks.sense event)])
  raise? (hooks.sense event)

/-- Tell the sensor of an event, whatever it does. -/
def report (hooks : Hooks) (event : SensorEvent) : Attempt σ Unit := do
  let _ ← contain (sense hooks event)

variable [Exchange σ]

/-- Start to read the request body. -/
def readBody : Attempt σ (Except IoError (List IoEvent)) := call fun x ↦
  match Exchange.readBody x with
  | (reply, events, x) => (reply.outcome events, .readBody reply, x)

/-- Commit status and headers. -/
def startResponse (response : Response) : Attempt σ (Except IoError (List IoEvent)) := call fun x ↦
  match Exchange.startResponse x response.status response.headers with
  | (reply, events, x) =>
    (reply.outcome events, .startResponse response.status response.headers reply, x)

/-- Ask whether a write would be taken at once. -/
def isReady : Attempt σ Bool := call fun x ↦
  match Exchange.isReady x with
  | (answer, x) => (answer.outcome, .isReady answer, x)

/-- Write a piece of the response body. -/
def write (chunk : Bytes) : Attempt σ (Except IoError Unit) := call fun x ↦
  match Exchange.write x chunk with
  | (reply, x) => (reply.outcome (), .write chunk reply, x)

/-- Send a whole response past the usual way. -/
def sendFallback (response : Response) : Attempt σ (Except IoError Unit) := call fun x ↦
  match Exchange.sendFallback x response with
  | (reply, x) => (reply.outcome (), .sendFallback response reply, x)

/-- Declare the exchange over. -/
def complete : Attempt σ Unit := call fun x ↦
  match Exchange.complete x with
  | (fault?, x) => (fault?.elim (.ok ()) .error, .complete fault?, x)

/-- Refuse the exchange. -/
def reject (reason : Refusal) : Attempt σ Unit := call fun x ↦
  match Exchange.reject x reason with
  | (fault?, x) => (fault?.elim (.ok ()) .error, .reject reason fault?, x)

/-! ## The program -/

omit [Exchange σ] in
/-- Go on as an operation leads to; the code that it ran raises its fault. -/
def react (next : Value → Program) : Reaction → Attempt σ Unit
  | .fault f d => do
    act (·.takeOver d)
    throw f
  | reaction => act (·.react next reaction)

/-- Go on from where a run of the program stopped. -/
def proceed : Routine.Outcome Operation Value → Attempt σ Unit
  | .faulted f => throw f
  | .suspended op next => do
    let r := (← get).request
    react next (r.dossier.answer r.metadata op)
  | .finished value => act (·.proceed (.finished value))

/-- Take the program, run it up to where it stops, and go on from there. -/
def turn : Attempt σ Unit := do
  match (← get).request.program with
  | none => goTo (.leaving (.fail .noProgram))
  | some p =>
    alter fun r ↦ { r with program := none }
    match ← contain (proceed p.run) with
    | .ok () => pure ()
    | .error f => goTo (.leaving (.fail (.program f)))

/-! ## The transport -/

/-- Start to read the body. -/
def beginRead (limit : Nat) (next : Value → Program) : Attempt σ Unit := do
  match ← guarded readBody with
  | .error e => alter fun r ↦ { r with reads := some .ended, stage := .failing (.readStart e) }
  | .ok events =>
    alter fun r ↦
      { r with
        reads := some (Inbox.empty.deliver events), stage := .reading (.new limit) next }

/-- Start the response, with the headers and cookies that the program added. -/
def beginResponse (chunkSize : Nat) (response : Response) : Attempt σ Unit := do
  let assembled := (← get).request.dossier.assemble response
  alter fun r ↦ { r with dossier := assembled.2 }
  match ← guarded (startResponse assembled.1) with
  | .error e =>
    alter fun r ↦ { r with writes := some .ended, stage := .failing (.responseStart e) }
  | .ok events =>
    alter fun r ↦
      { r with
        writes := some (Inbox.empty.deliver events)
        stage := .writing (.new assembled.1.body chunkSize) }

/-- Do what the program left its worker for. -/
def depart (maxBodyBytes chunkSize : Nat) : Exit → Attempt σ Unit
  | .respond response => beginResponse chunkSize response
  | .readBody limit next => beginRead (min limit maxBodyBytes) next
  | .fail failure => goTo (.failing failure)

/-- Write pieces of `chunkSize` bytes until nothing is left or the exchange does not take more; says
what it came to and what is left. -/
def writeAll (chunkSize : Nat) (pos : 0 < chunkSize) (unsent : Bytes) :
    Attempt σ (ResponseWriter.Progress × Bytes) := do
  match unsent with
  | [] => pure (.done, [])
  | first :: more =>
    match ← contain isReady with
    | .error f => pure (.failed (.ofFault f), first :: more)
    | .ok false => pure (.pending, first :: more)
    | .ok true =>
      match ← guarded (write ((first :: more).take chunkSize)) with
      | .error e => pure (.failed e, first :: more)
      | .ok () => writeAll chunkSize pos ((first :: more).drop chunkSize)
termination_by unsent.length
decreasing_by simp only [List.length_drop, List.length_cons]; omega

/-- Look at one event while the response is written. -/
def receiveWrite (writer : ResponseWriter) (event : IoEvent) : Attempt σ Unit := do
  match event with
  | .writable =>
    match ← writeAll writer.chunkSize writer.chunkSize_pos writer.unsent with
    | (.pending, unsent) => goTo (.writing { writer with unsent })
    | (.done, _) => alter (·.endWrite .finishing)
    | (.failed e, _) => alter (·.endWrite (.failing (.write e)))
  | event => act (·.receiveWrite writer event)

/-- Look at one event of the phase that the request is in. -/
def receive (event : IoEvent) : Attempt σ Unit := do
  match (← get).request.stage with
  | .writing writer => receiveWrite writer event
  | _ => act (·.receive event)

/-! ## The ends -/

omit [Exchange σ] in
/-- Write down that a cleaner broke off in the sweep, and tell the sensor. -/
def tellFailed (hooks : Hooks) (id : Nat) (f : Fault) : Attempt σ Unit := do
  act fun r ↦ r.takeOver { r.dossier with cleaners := r.dossier.cleaners.log (.failed id f) }
  report hooks (.cleanupFailed (← get).request.ordinal (f.messageWith hooks.kindName))

omit [Exchange σ] in
/-- Start the cleaners below `id` from the newest to the oldest; the fault of one does not reach the
next. -/
def sweepBelow (hooks : Hooks) (depth : Nat) : Nat → Attempt σ Unit
  | 0 => pure ()
  | id + 1 => do
    match ← contain (fire depth id) with
    | .ok _ => pure ()
    | .error f => tellFailed hooks id f
    sweepBelow hooks depth id

omit [Exchange σ] in
/-- Run the cleaners that have not been started. -/
def sweep (hooks : Hooks) : Attempt σ Unit := do
  let cleaners := (← get).request.dossier.cleaners
  if cleaners.swept then pure ()
  else
    alter fun r ↦
      { r with dossier := { r.dossier with cleaners := { r.dossier.cleaners with swept := true } } }
    sweepBelow hooks cleaners.pending cleaners.size

/-- Word the response to the failed request, or take the last resort. -/
def errorResponse (hooks : Hooks) : Attempt σ Response := do
  let r := (← get).request
  match ← contain (raising (hooks.format r.ordinal r.metadata)) with
  | .ok response => pure response
  | .error _ => pure .minimal

/-- Send the response past the usual way, and the last resort if that fails. -/
def sendError (response : Response) : Attempt σ Unit := do
  match ← guarded (sendFallback response) with
  | .ok () => pure ()
  | .error _ =>
    let _ ← guarded (sendFallback .minimal)

/-- Answer a request that failed with an error. -/
def fail (hooks : Hooks) (failure : Failure) : Attempt σ Unit := do
  report hooks (.connectionError (← get).request.ordinal (failure.message hooks.kindName))
  count Pool.countFailure
  sendError (← errorResponse hooks)
  goTo .finishing

/-- Run the cleaners and declare the exchange over. Only the first end of a request does anything,
and says so. -/
def finish (hooks : Hooks) : Attempt σ Bool := do
  if (← get).request.closed then pure false
  else
    alter fun r ↦ { r with closed := true }
    sweep hooks
    complete
    pure true

/-- A request that has been answered leaves, and is retired once. -/
def finalize (hooks : Hooks) : Attempt σ Unit := do
  match ← contain (finish hooks) with
  | .ok true =>
    count (·.retire true)
    goTo (.gone .completed)
  | .ok false => goTo (.gone .completed)
  | .error _ =>
    count (·.retire false)
    goTo (.gone .broken)

/-- Refuse the exchange and run the cleaners. Only the first end of a request does anything. -/
def turnAway (hooks : Hooks) (reason : Refusal) : Attempt σ Unit := do
  if (← get).request.closed then pure ()
  else
    alter fun r ↦ { r with closed := true }
    report hooks (.rejected (← get).request.ordinal reason.message)
    reject reason
    sweep hooks

/-- A request is refused, and counted once. -/
def refuse (hooks : Hooks) (reason : Refusal) (admitted : Bool) : Attempt σ Unit := do
  let _ ← contain (turnAway hooks reason)
  count (·.refuse admitted)
  goTo (.gone (.refused reason))

omit [Exchange σ] in
/-- Run the cleaners of a request that nobody holds any more. -/
def drop (hooks : Hooks) : Attempt σ Unit := do
  if (← get).request.closed then pure ()
  else
    alter fun r ↦ { r with closed := true }
    sweep hooks

omit [Exchange σ] in
/-- A request that the transport forgot while it waited is dropped. -/
def lose (hooks : Hooks) : Attempt σ Unit := do
  drop hooks
  goTo .lost

end Attempt

end Turnstile
