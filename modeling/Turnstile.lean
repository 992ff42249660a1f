import Turnstile.Routine.Run
import Turnstile.Text.Blank
import Turnstile.Text.Quoted
import Turnstile.Text.Digits
import Turnstile.Text.Alphanumeric
import Turnstile.Text.Utf8
import Turnstile.Text.Inspect
import Turnstile.Qos
import Turnstile.Metadata
import Turnstile.Config.Json
import Turnstile.Response
import Turnstile.Cookie
import Turnstile.Refusal
import Turnstile.Sensor
import Turnstile.Cleanup
import Turnstile.Router
import Turnstile.BodyReader
import Turnstile.ResponseWriter
import Turnstile.Exchange.InMemory
import Turnstile.Queue
import Turnstile.Classifier
import Turnstile.Script
import Turnstile.Calculator
import Turnstile.Rehearsal
import Turnstile.Environment.File
import Turnstile.Config.Environment
import Turnstile.Exchange.Scripted
import Turnstile.Dossier
import Turnstile.Failure
import Turnstile.Hooks
import Turnstile.Pool
import Turnstile.Inbox
import Turnstile.Stage
import Turnstile.Request
import Turnstile.Scheduler
import Turnstile.Scheduler.Settle
import Turnstile.Blueprint
import Turnstile.Routine.Dialogue
import Turnstile.Meaning
import Turnstile.Conduit
import Turnstile.Binary64
import Turnstile.Binary64.Shortest
import Turnstile.Json.Canonical
import Turnstile.Proofs.Pool.Balance
import Turnstile.Proofs.Scheduler.State
import Turnstile.Proofs.Request.Step
import Turnstile.Proofs.Cleanup.Ran
import Turnstile.Proofs.Cleanup.Sweep
import Turnstile.Proofs.Meaning.Engine
import Turnstile.Proofs.Request.Answer
import Turnstile.Proofs.Request.Finalization
import Turnstile.Proofs.Request.Turns
import Turnstile.Proofs.Scheduler.Accounting
import Turnstile.Proofs.Scheduler.Admission
import Turnstile.Proofs.Scheduler.Finalization
import Turnstile.Proofs.Scheduler.Meaning
import Turnstile.Proofs.Request.Refusal
import Turnstile.Proofs.Scheduler.Ranking
import Turnstile.Proofs.Request.Wire
import Turnstile.Proofs.Scheduler.Refusal
import Turnstile.Proofs.Pool.Order
import Turnstile.Proofs.Scheduler.Classes
import Turnstile.Proofs.Scheduler.Priority
import Turnstile.Proofs.Request.Calls
import Turnstile.Proofs.Request.Protocol
import Turnstile.Proofs.Scheduler.Protocol
import Turnstile.Proofs.Request.Attempt
import Turnstile.Proofs.Request.Containment
import Turnstile.Proofs.Request.Failing
import Turnstile.Proofs.Scheduler.Attempt
import Turnstile.Proofs.Scheduler.Leaving
import Turnstile.Proofs.Scheduler.Containment
import Turnstile.Proofs.Pool.Decision
import Turnstile.Proofs.Request.Refusing
import Turnstile.Proofs.Scheduler.Decision
import Turnstile.Proofs.Pool.Stop
import Turnstile.Proofs.Request.Account
import Turnstile.Proofs.Request.Renumber
import Turnstile.Proofs.Scheduler.Alone
import Turnstile.Proofs.Step.Laws
import Turnstile.Proofs.Scheduler.Typing
import Turnstile.Proofs.Scheduler.Phase
import Turnstile.Proofs.Scheduler.Wire
import Turnstile.Proofs.Scheduler.Completion
import Turnstile.Proofs.Conduit.Handover
import Turnstile.Proofs.Queue.Roster
import Turnstile.Proofs.Body.Writing
import Turnstile.Proofs.Body.Reading
import Turnstile.Proofs.Body.Counting
import Turnstile.Proofs.Cleanup.Reentrancy
import Turnstile.Proofs.Router.Segments
import Turnstile.Proofs.Router.Nesting
import Turnstile.Proofs.Scheduler.Routing
import Turnstile.Proofs.Exchange.Rounds
import Turnstile.Proofs.Json.RoundTrip
import Turnstile.Proofs.Config.RoundTrip
import Turnstile.Proofs.Metadata.Lookup
import Turnstile.Proofs.Sensor.Newest
import Turnstile.Proofs.Routine.Turns
import Turnstile.Proofs.Cleanup.Stack
