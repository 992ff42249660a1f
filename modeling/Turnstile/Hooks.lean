import Turnstile.Classifier
import Turnstile.Response
import Turnstile.Sensor

/-!
# Hooks

The user code that a scheduler is set up with: what classifies requests, what is told of failures,
and what words the response to a failed request. Each may break off.
-/

namespace Turnstile

/-- The user code of a scheduler. What a hook does may differ from request to request. -/
structure Hooks where
  /-- Classifies the request with this ordinal. -/
  classify : Nat → Classifier
  /-- Words the response to the failed request with this ordinal. -/
  format : Nat → Metadata → Except Fault Response
  /-- Is told of an event; the fault is the one it raised. -/
  sense : SensorEvent → Option Fault
  /-- The name of a kind of value in messages. -/
  kindName : Kind → String

namespace Hooks

/-- Every request has the class `qos`, failures are told to nobody, and a failed request gets the
response that names it. -/
def plain (qos : Qos) : Hooks where
  classify _ := .fixed qos
  format _ m := .ok (.internalError m)
  sense _ := none
  kindName := Kind.name

/-- The class of a request, or `fallback` if the classifier broke off. -/
def classOf (h : Hooks) (fallback : Qos) (ordinal : Nat) (m : Metadata) : Qos :=
  match h.classify ordinal m with
  | .ok qos => qos
  | .error _ => fallback

/-- The response to a failed request, or the last resort if the hook broke off. -/
def errorResponse (h : Hooks) (ordinal : Nat) (m : Metadata) : Response :=
  match h.format ordinal m with
  | .ok response => response
  | .error _ => .minimal

end Hooks

end Turnstile
