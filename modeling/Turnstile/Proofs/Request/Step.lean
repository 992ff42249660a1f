import Turnstile.Request
import Turnstile.Config

/-!
# The steps of one request

What can happen to one request while a scheduler runs, whoever causes it: its own program and
exchange, the transport, or the scheduler that gives it a slot, queues it or refuses it. A run of
the scheduler is for each request a run of these steps (`Scheduler.Change.step`), so what every
run does to a request is proved here by cases on the step, and without the other requests.

Each step carries what it brings from outside (`Request.Input`) and what it tells (`Happening`).
-/

namespace Turnstile

namespace Request

variable {σ : Type} [Exchange σ]

/-- What a move brings to a request from outside. -/
inductive Input where
  /-- Nothing. -/
  | nothing
  /-- The transport starts to deliver the body and reports some events at once. -/
  | body (events : List IoEvent)
  /-- The transport reports events. -/
  | report (direction : Direction) (events : List IoEvent)
  /-- Somebody asks for another class. -/
  | ranking (qos : Qos)
  /-- The transport forgets the request. -/
  | forgotten

/-- The request waits for the transport. -/
def isWaiting (r : Request σ) : Bool :=
  match r.stage with
  | .reading _ _ | .writing _ => true
  | _ => false

/-- What the next move of a request brings from outside. -/
def nextInput (r : Request σ) : Input :=
  match r.stage with
  | .departed (.readBody _ _) =>
    match Exchange.readBody r.exchange with
    | (reply, events, _) => if reply.error?.isNone then .body events else .nothing
  | _ => .nothing

/-- The operation that a request carries out with its next move, if its program stops for one. -/
def executes? (r : Request σ) : Option Operation :=
  match r.stage, r.program with
  | .running, some p =>
    match p.run with
    | .suspended op _ => some op
    | _ => none
  | _, _ => none

omit [Exchange σ] in
theorem executes?_of_ne_running {r : Request σ} (h : r.stage ≠ .running) : r.executes? = none := by
  unfold executes?
  split
  next hstage _ => exact absurd hstage h
  · rfl

/-- The moves that change nothing but the stage. -/
inductive Passes : Stage → Stage → Prop where
  /-- A fresh request gets a slot. -/
  | admitted : Passes .arriving .ready
  /-- A fresh request has to wait. -/
  | enqueued : Passes .arriving .queued
  /-- A fresh request is to be refused. -/
  | declined (reason : Refusal) : Passes .arriving (.refusing reason false)
  /-- A request with its body gets a slot again. -/
  | readmitted : Passes .returning .ready
  /-- A request with its body has to wait. -/
  | requeued : Passes .returning .queued
  /-- A request with its body is to be refused. -/
  | turnedAway (reason : Refusal) : Passes .returning (.refusing reason true)
  /-- A waiting request gets a slot. -/
  | promoted : Passes .queued .ready
  /-- A waiting request is taken out of the queue because the scheduler was stopped. -/
  | dismissed : Passes .queued .drained
  /-- A worker picks the request up. -/
  | pickedUp : Passes .ready .running
  /-- The gate opens. -/
  | passed : Passes .gated .running
  /-- The request gives its slot back. -/
  | left (exit : Exit) : Passes (.leaving exit) (.departed exit)

/-- The moves of a request that concern neither the pool nor another request. -/
inductive Own (hooks : Hooks) (config : Config) (r : Request σ) :
    Input → Request σ → List Happening → Prop where
  /-- A turn of its program. -/
  | turn (h : r.stage = .running) : Own hooks config r .nothing r.turn.1 r.turn.2
  /-- It does what it left its worker for. -/
  | depart {exit : Exit} (h : r.stage = .departed exit) :
    Own hooks config r r.nextInput
      (r.depart config.maxBodyBytes config.writeChunkSize exit).1
      (r.depart config.maxBodyBytes config.writeChunkSize exit).2
  /-- It looks at an event. -/
  | receive {event : IoEvent} {r' : Request σ} (h : r.nextEvent? = some (event, r')) :
    Own hooks config r .nothing (r'.receive event).1 (r'.receive event).2
  /-- The transport reports events. -/
  | deliver (events : List IoEvent) (direction : Direction) :
    Own hooks config r (.report direction events) (r.deliver events direction) []
  /-- The transport does what it does on its own. -/
  | wake {events : List IoEvent} {exchange : σ}
    (h : Exchange.wake r.exchange = some (events, exchange)) :
    Own hooks config r .nothing ({ r with exchange }.deliver events .write) []
  /-- The transport forgets the request while it waits. -/
  | forget (h : r.isWaiting = true) :
    Own hooks config r .forgotten
      { (Request.drop hooks { r with reads := none, writes := none }).1 with stage := .lost }
      (Request.drop hooks { r with reads := none, writes := none }).2
  /-- The transport forgets the request while it does not wait. -/
  | detach (h : r.isWaiting = false) :
    Own hooks config r .forgotten { r with reads := none, writes := none } []

/-- What can happen to a request. -/
inductive Step (hooks : Hooks) (config : Config) (r : Request σ) :
    Input → Request σ → List Happening → Prop where
  /-- Nothing. -/
  | stay : Step hooks config r .nothing r []
  /-- It is asked to take another class and does not wait. -/
  | keepRank (qos : Qos) : Step hooks config r (.ranking qos) r []
  /-- It waits and takes another class. -/
  | rank (qos : Qos) (h : r.stage = .queued) :
    Step hooks config r (.ranking qos) { r with dossier := { r.dossier with qos } } []
  /-- Its stage changes. -/
  | pass {stage : Stage} (h : Passes r.stage stage) :
    Step hooks config r .nothing { r with stage } []
  /-- It makes a move of its own. -/
  | own {input : Input} {r' : Request σ} {told : List Happening}
    (h : Own hooks config r input r' told) : Step hooks config r input r' told
  /-- It failed and is answered with an error. -/
  | fail {failure : Failure} (h : r.stage = .failing failure) :
    Step hooks config r .nothing
      (Request.fail hooks r failure).1 (Request.fail hooks r failure).2
  /-- It has been answered and leaves. -/
  | finish (h : r.stage = .finishing) :
    Step hooks config r .nothing
      { (Request.finish hooks r).2.1 with
        stage := .gone (.ofFinish (Request.finish hooks r).1) }
      (Request.finish hooks r).2.2
  /-- It is refused. -/
  | refuse {reason : Refusal} (h : (∃ admitted, r.stage = .refusing reason admitted) ∨
      r.stage = .drained ∧ reason = .shutdown) :
    Step hooks config r .nothing
      { (Request.refuse hooks r reason).1 with stage := .gone (.refused reason) }
      (Request.refuse hooks r reason).2

/-- Moves lead from `start` to a request, with what they brought from outside and what they
told. -/
inductive Run (hooks : Hooks) (config : Config) (start : Request σ) :
    List Input → Request σ → List Happening → Prop where
  /-- No move yet. -/
  | start : Run hooks config start [] start []
  /-- One more move. -/
  | step {inputs : List Input} {r r' : Request σ} {input : Input} {told more : List Happening}
    (h : Run hooks config start inputs r told) (s : Step hooks config r input r' more) :
    Run hooks config start (inputs ++ [input]) r' (told ++ more)

theorem Run.cons {hooks : Hooks} {config : Config} {r₀ r₁ r₂ : Request σ} {input : Input}
    {inputs : List Input} {told more : List Happening} (h : Run hooks config r₁ inputs r₂ more)
    (s : Step hooks config r₀ input r₁ told) :
    Run hooks config r₀ (input :: inputs) r₂ (told ++ more) := by
  induction h with
  | start =>
    rw [List.append_nil]
    exact .step .start s
  | step h s ih =>
    rw [← List.append_assoc]
    exact .step ih s

end Request

end Turnstile
