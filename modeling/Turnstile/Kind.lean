/-!
# Kinds of values

The kinds a typed program can name for the value it yields. A kind is a code; what a value of
that kind is stands in `Turnstile.Value`.
-/

namespace Turnstile

/-- The kinds of values that flow between the steps of a program. -/
inductive Kind where
  /-- The single value of a step that is run for its effect. -/
  | unit
  /-- A truth value. -/
  | flag
  /-- A 64-bit word. -/
  | word
  /-- A text. -/
  | text
  /-- A list of texts. -/
  | texts
  /-- A sequence of bytes. -/
  | bytes
  /-- A service class. -/
  | qos
  /-- A handle to a registered cleaner. -/
  | handle
  /-- A complete response. -/
  | response
  /-- A value of any kind. -/
  | any
  deriving DecidableEq, Repr, Inhabited

/-- The name of a kind in messages. -/
def Kind.name : Kind → String
  | .unit => "unit"
  | .flag => "flag"
  | .word => "word"
  | .text => "text"
  | .texts => "list of texts"
  | .bytes => "bytes"
  | .qos => "qos"
  | .handle => "handle"
  | .response => "response"
  | .any => "value"

end Turnstile
