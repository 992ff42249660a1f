import Turnstile.Config
import Turnstile.Pool
import Turnstile.Request

/-!
# The scheduler

All requests that ever arrived, the pool that gives them slots, and the journal of what happened.
The scheduler makes one move at a time, and any request that can move may be the next to do so: a
move is what one thread does to the pool at once, together with what it does on its own before it
touches the pool again. So every interleaving of the threads is a sequence of moves.
-/

namespace Turnstile

/-- Something that happened to the request with an ordinal. -/
structure Entry where
  /-- The ordinal of the request. -/
  ordinal : Nat
  /-- What happened. -/
  happening : Happening
  deriving DecidableEq

/-- Requests, pool and journal. -/
structure Scheduler (σ : Type) where
  /-- The settings. -/
  config : Config
  /-- The user code. -/
  hooks : Hooks
  /-- Slots, queue and counters. -/
  pool : Pool
  /-- All requests, by ordinal. -/
  requests : Array (Request σ)
  /-- The requests that wait for a worker to pick them up, in the order they got their slots. -/
  jobs : List Nat
  /-- The requests taken out of the queue to be refused, in the order of service. -/
  draining : List Nat
  /-- The requests whose gates have been opened; each entry lets a request pass one gate. -/
  permits : List Nat
  /-- All that happened so far. -/
  journal : Journal Entry

namespace Scheduler

variable {σ : Type} [Exchange σ]

/-- A scheduler without requests. -/
def new (config : Config) (hooks : Hooks) : Scheduler σ where
  config := config
  hooks := hooks
  pool := .empty config.workerCount config.maxInFlight
  requests := #[]
  jobs := []
  draining := []
  permits := []
  journal := .empty

/-- A scheduler, if its settings break no rule. -/
def start? (config : Config) (hooks : Hooks) : Except Refusal (Scheduler σ) :=
  match config.validate with
  | .ok config => .ok (.new config hooks)
  | .error defect => .error (.invalidConfig defect.message)

/-! ## Changes to the state -/

/-- Put a request back in its place. -/
def put (s : Scheduler σ) (r : Request σ) : Scheduler σ :=
  { s with requests := s.requests.setIfInBounds r.ordinal r }

/-- Write into the journal what happened to a request. -/
def record (s : Scheduler σ) (ordinal : Nat) (told : List Happening) : Scheduler σ :=
  { s with journal := s.journal ++ (told.map fun h ↦ Entry.mk ordinal h) }

/-- Put a request back and write down what happened to it. -/
def absorb (s : Scheduler σ) (told : Request σ × List Happening) : Scheduler σ :=
  (s.put told.1).record told.1.ordinal told.2

/-- Change the stage of a request. -/
def restage (s : Scheduler σ) (change : Stage → Stage) (ordinal : Nat) : Scheduler σ :=
  match s.requests[ordinal]? with
  | some r => s.put { r with stage := change r.stage }
  | none => s

/-- Change the stages of several requests. -/
def restageAll (s : Scheduler σ) (change : Stage → Stage) (ordinals : List Nat) : Scheduler σ :=
  ordinals.foldl (restage · change ·) s

/-! ## Moves of one request -/

/-- A request asks for a slot. -/
def enroll (s : Scheduler σ) (r : Request σ) (admission : Admission) : Scheduler σ :=
  match s.pool.enroll r.rank admission with
  | .ok (.live, pool) =>
    { s with pool, jobs := s.jobs ++ [r.ordinal] }.put { r with stage := .ready }
  | .ok (.queued, pool) => { s with pool }.put { r with stage := .queued }
  | .error reason => s.put { r with stage := .refusing reason (admission = .resumed) }

/-- Those who got a slot can be picked up, and those who were to get one and did not are refused. -/
def settlePromotion (s : Scheduler σ) (outcome : Pool.Promotion) : Scheduler σ :=
  let s := { s with pool := outcome.pool, jobs := s.jobs ++ outcome.promoted }
  outcome.barred.foldl (fun s (ordinal, reason) ↦ s.restage (Stage.barred reason) ordinal)
    (s.restageAll Stage.promoted outcome.promoted)

/-- A request gives its slot back, and those who wait move up. -/
def release (s : Scheduler σ) (r : Request σ) (exit : Exit) : Scheduler σ :=
  (s.put { r with stage := .departed exit }).settlePromotion s.pool.release

/-- A request is refused. -/
def refuse (s : Scheduler σ) (r : Request σ) (reason : Refusal) (admitted : Bool) :
    Scheduler σ :=
  let (r, told) := Request.refuse s.hooks r reason
  { s with pool := s.pool.refuse admitted }.absorb
    ({ r with stage := .gone (.refused reason) }, told)

/-- A request has been answered and leaves. It is counted unless it had left before. -/
def finish (s : Scheduler σ) (r : Request σ) : Scheduler σ :=
  let (completed?, r, told) := Request.finish s.hooks r
  { s with pool := completed?.elim s.pool s.pool.retire }.absorb
    ({ r with stage := .gone (.ofFinish completed?) }, told)

/-- A worker picks up the request that has waited longest. -/
def pickUp (s : Scheduler σ) (r : Request σ) : Scheduler σ :=
  match s.jobs with
  | first :: jobs =>
    if first = r.ordinal then { s with jobs }.put { r with stage := .running } else s
  | [] => s

/-- The next move of a request, if it can move. -/
def advanceRequest (s : Scheduler σ) (r : Request σ) : Scheduler σ :=
  match r.stage with
  | .arriving => s.enroll r .fresh
  | .returning => s.enroll r .resumed
  | .ready => s.pickUp r
  | .running => s.absorb r.turn
  | .gated =>
    if s.permits.contains r.ordinal then
      { s with permits := s.permits.erase r.ordinal }.put { r with stage := .running }
    else s
  | .leaving exit => s.release r exit
  | .departed exit => s.absorb (r.depart s.config.maxBodyBytes s.config.writeChunkSize exit)
  | .reading _ _ | .writing _ =>
    match r.nextEvent? with
    | some (event, r) => s.absorb (r.receive event)
    | none => s
  | .failing failure =>
    { s with pool := s.pool.countFailure }.absorb (Request.fail s.hooks r failure)
  | .finishing => s.finish r
  | .refusing reason admitted => s.refuse r reason admitted
  | .queued | .drained | .gone _ | .lost => s

/-- The transport forgets a request. If it waits for the transport it is dropped. -/
def forgetRequest (s : Scheduler σ) (r : Request σ) : Scheduler σ :=
  match r.stage with
  | .reading .. | .writing _ =>
    let (r, told) := Request.drop s.hooks { r with reads := none, writes := none }
    s.absorb ({ r with stage := .lost }, told)
  | _ => s.put { r with reads := none, writes := none }

/-! ## Moves -/

/-- A move. -/
inductive Move (σ : Type) where
  /-- A request arrives and is classified. -/
  | arrive (exchange : σ) (program : Program)
  /-- A request moves on. -/
  | advance (ordinal : Nat)
  /-- The transport reports events for a request. -/
  | deliver (ordinal : Nat) (direction : Direction) (events : List IoEvent)
  /-- The transport does what it does on its own for a request. -/
  | wake (ordinal : Nat)
  /-- The transport forgets a request. -/
  | forget (ordinal : Nat)
  /-- The gate of a request is opened. -/
  | openGate (ordinal : Nat)
  /-- A waiting request is moved to another class. -/
  | reprioritize (ordinal : Nat) (qos : Qos)
  /-- The scheduler is stopped: the queue is emptied. -/
  | stop
  /-- The next of those taken out of the queue is refused. -/
  | drain

/-- A request arrives and is classified. -/
def arrive (s : Scheduler σ) (exchange : σ) (program : Program) : Scheduler σ :=
  let ordinal := s.requests.size
  let qos := s.hooks.classOf s.config.defaultQos ordinal (Exchange.metadata exchange)
  { s with requests := s.requests.push (.new ordinal qos exchange program) }

/-- A request moves on, if it can. -/
def advance (s : Scheduler σ) (ordinal : Nat) : Scheduler σ :=
  match s.requests[ordinal]? with
  | some r => s.advanceRequest r
  | none => s

/-- The transport reports events for a request. -/
def deliver (s : Scheduler σ) (ordinal : Nat) (direction : Direction) (events : List IoEvent) :
    Scheduler σ :=
  match s.requests[ordinal]? with
  | some r => s.put (r.deliver events direction)
  | none => s

/-- The transport does what it does on its own for a request. -/
def wake (s : Scheduler σ) (ordinal : Nat) : Scheduler σ :=
  match s.requests[ordinal]? with
  | some r =>
    match Exchange.wake r.exchange with
    | some (events, exchange) => s.put ({ r with exchange }.deliver events .write)
    | none => s
  | none => s

/-- The transport forgets a request. -/
def forget (s : Scheduler σ) (ordinal : Nat) : Scheduler σ :=
  match s.requests[ordinal]? with
  | some r => s.forgetRequest r
  | none => s

/-- The gate of a request is opened. -/
def openGate (s : Scheduler σ) (ordinal : Nat) : Scheduler σ :=
  { s with permits := s.permits ++ [ordinal] }

/-- A waiting request is moved to another class; says whether it waits. -/
def reprioritize (s : Scheduler σ) (ordinal : Nat) (qos : Qos) : Bool × Scheduler σ :=
  match s.pool.reprioritize? ordinal qos, s.requests[ordinal]? with
  | some pool, some r =>
    (true, { s with pool }.put { r with dossier := { r.dossier with qos } })
  | _, _ => (false, s)

/-- The queue is emptied and nobody is admitted any more. -/
def stop (s : Scheduler σ) : Scheduler σ :=
  let (waiting, pool) := s.pool.stop
  { s with pool, draining := s.draining ++ waiting }.restageAll Stage.dismissed waiting

/-- The next of those taken out of the queue is refused. -/
def drain (s : Scheduler σ) : Scheduler σ :=
  match s.draining with
  | ordinal :: draining =>
    match s.requests[ordinal]? with
    | some r => { s with draining }.refuse r .shutdown true
    | none => { s with draining }
  | [] => s

/-- Make a move. A move that is not possible changes nothing. -/
def perform (s : Scheduler σ) : Move σ → Scheduler σ
  | .arrive exchange program => s.arrive exchange program
  | .advance ordinal => s.advance ordinal
  | .deliver ordinal direction events => s.deliver ordinal direction events
  | .wake ordinal => s.wake ordinal
  | .forget ordinal => s.forget ordinal
  | .openGate ordinal => s.openGate ordinal
  | .reprioritize ordinal qos => (s.reprioritize ordinal qos).2
  | .stop => s.stop
  | .drain => s.drain

/-- Make moves in order. -/
def performAll (s : Scheduler σ) (moves : List (Move σ)) : Scheduler σ := moves.foldl perform s

/-- Some moves lead from the beginning, with settings that break no rule, to this state. -/
inductive Reachable : Scheduler σ → Prop where
  /-- The beginning. -/
  | start {config : Config} (valid : config.Valid) (hooks : Hooks) :
    Reachable (.new config hooks)
  /-- One more move. -/
  | move {s : Scheduler σ} (h : Reachable s) (m : Move σ) : Reachable (s.perform m)

/-! ## What can be seen from outside -/

/-- The counters of a scheduler. -/
structure Stats where
  workerCount : Nat
  maxInFlight : Nat
  live : Nat
  queued : Nat
  active : Nat
  submitted : Nat
  completed : Nat
  rejected : Nat
  failed : Nat
  deriving DecidableEq, Repr

/-- The counters as text. -/
def Stats.inspect (t : Stats) : String :=
  Text.inspectRecord "SchedulerStats"
    [("worker_count", toString t.workerCount), ("max_in_flight", toString t.maxInFlight),
      ("live", toString t.live), ("queued", toString t.queued), ("active", toString t.active),
      ("submitted", toString t.submitted), ("completed", toString t.completed),
      ("rejected", toString t.rejected), ("failed", toString t.failed)]

/-- The counters. -/
def stats (s : Scheduler σ) : Stats where
  workerCount := s.config.workerCount
  maxInFlight := s.config.maxInFlight
  live := s.pool.live
  queued := s.pool.queue.size
  active := s.pool.active
  submitted := s.pool.submitted
  completed := s.pool.completed
  rejected := s.pool.rejected
  failed := s.pool.failed

/-- No request is anywhere. -/
def isIdle (s : Scheduler σ) : Bool := s.pool.isIdle

/-- The inbox that the transport knows for a request and a direction. -/
def inbox? (s : Scheduler σ) (ordinal : Nat) (direction : Direction) : Option Inbox :=
  s.requests[ordinal]? >>= (·.inbox? direction)

/-- The scheduler as text. -/
def inspect (s : Scheduler σ) : String :=
  Text.inspectRecord "Scheduler"
    [("config", s.config.inspect), ("stats", s.stats.inspect)]

end Scheduler

end Turnstile
