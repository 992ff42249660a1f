import Turnstile.Kind

/-!
# Faults

A fault is what a piece of user code raises when it breaks off: a request program, a cleaner, a
transport, a classifier or a formatter. Whoever called the code contains the fault and goes on;
all that is left of it then is its message. What cannot be set up at all, because memory, a thread
or a variable cannot be had, ends in a fault too.
-/

namespace Turnstile

/-- What was raised when something broke off. -/
inductive Fault where
  /-- Raised with a message. -/
  | text (message : String)
  /-- Raised with something that is no text. -/
  | unlabelled
  /-- A continuation was resumed with a value of another kind than it expects. -/
  | wrongKind (expected : Kind)
  deriving DecidableEq, Repr, Inhabited

namespace Fault

/-- The message of a fault, with kinds named by `name`. -/
def messageWith (name : Kind → String) : Fault → String
  | .text message => message
  | .unlabelled => "non-string panic payload"
  | .wrongKind expected => "continuation resumed with a value that is not a " ++ name expected

/-- The message of a fault. -/
def message : Fault → String := messageWith Kind.name

end Fault

end Turnstile
