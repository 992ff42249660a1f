import Turnstile.Io

/-!
# Failures

Why a request that was accepted is answered with an internal error.
-/

namespace Turnstile

/-- Why a request failed. -/
inductive Failure where
  /-- A worker found no program to run. -/
  | noProgram
  /-- The program broke off. -/
  | program (f : Fault)
  /-- The program finished with something that is no response. -/
  | noResponse
  /-- Reading the body could not be started. -/
  | readStart (e : IoError)
  /-- Reading the body failed. -/
  | read (e : IoError)
  /-- The response could not be started. -/
  | responseStart (e : IoError)
  /-- Writing the response failed. -/
  | write (e : IoError)
  deriving DecidableEq, Repr

/-- The wording of a failure, with kinds named by `kindName`. -/
def Failure.message (kindName : Kind → String) : Failure → String
  | .noProgram => "request has no program to run"
  | .program f => "request program panicked: " ++ f.messageWith kindName
  | .noResponse => "request program finished without a Response"
  | .readStart e => "failed to start body read: " ++ e.message
  | .read e => "body read failed: " ++ e.message
  | .responseStart e => "failed to start response: " ++ e.message
  | .write e => "response write failed: " ++ e.message

end Turnstile
