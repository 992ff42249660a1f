import Turnstile.Config
import Turnstile.Environment
import Turnstile.Text.Digits

/-!
# Settings from the environment

Each setting has a variable. The number of workers also decides the cap, unless the cap is given
itself.
-/

namespace Turnstile

namespace Config

/-- Why a text is no value of a setting. -/
inductive ValueError where
  /-- It is no number that fits. -/
  | digits (e : Text.DigitsError)
  /-- It names no class. -/
  | qos (e : Qos.UnknownName)
  deriving DecidableEq, Repr

/-- The wording of why a text is no value. -/
def ValueError.message : ValueError → String
  | .digits e => e.message
  | .qos e => e.message

/-- Why the environment gives no settings. -/
inductive EnvironmentError where
  /-- A variable is no text. -/
  | notText (name : String) (value : Bytes)
  /-- The text of a variable is no value of its setting. -/
  | invalidValue (name value : String) (cause : ValueError)
  /-- The settings break a rule. -/
  | invalid (defect : Defect)
  deriving DecidableEq, Repr

/-- The wording of a failure: what could not be read, then why. -/
def EnvironmentError.message : EnvironmentError → String
  | .notText name value =>
    "cannot read " ++ name ++ ": environment variable was not valid unicode: " ++
      Text.quoteBytes value
  | .invalidValue name value cause =>
    "invalid " ++ name ++ "=" ++ Text.quote value ++ ": " ++ cause.message
  | .invalid defect => defect.message

/-- The value of a variable as `read` takes it, if it is set. -/
def setting? {α : Type} (env : Environment) (name : String)
    (read : String → Except ValueError α) : Except EnvironmentError (Option α) :=
  match env.get? name with
  | none => .ok none
  | some bytes =>
    match Text.decode? bytes with
    | none => .error (.notText name bytes)
    | some value =>
      match read (Text.trim value) with
      | .ok x => .ok (some x)
      | .error cause => .error (.invalidValue name value cause)

/-- Read a word. -/
def readWord (s : String) : Except ValueError Nat :=
  (Text.readDigits Text.maxWord s.toList).mapError .digits

/-- Read a class. -/
def readQos (s : String) : Except ValueError Qos := (Qos.parse s).mapError .qos

/-- The defaults with what the environment says, checked. The first variable that cannot be read
decides the error. -/
def ofEnvironment (defaults : Config) (env : Environment) : Except EnvironmentError Config := do
  let mut c := defaults
  if let some n ← setting? env "QOS_WORKER_COUNT" readWord then
    c := { c with workerCount := n, maxInFlight := n * inFlightPerWorker }
  if let some n ← setting? env "QOS_MAX_IN_FLIGHT" readWord then
    c := { c with maxInFlight := n }
  if let some n ← setting? env "QOS_MAX_BODY_BYTES" readWord then
    c := { c with maxBodyBytes := n }
  if let some n ← setting? env "QOS_WRITE_CHUNK_SIZE" readWord then
    c := { c with writeChunkSize := n }
  if let some n ← setting? env "QOS_THREAD_STACK_SIZE" readWord then
    c := { c with threadStackSize := n }
  if let some qos ← setting? env "QOS_DEFAULT" readQos then
    c := { c with defaultQos := qos }
  c.validate.mapError .invalid

end Config

end Turnstile
