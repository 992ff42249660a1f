import Turnstile.Kind
import Turnstile.Qos
import Turnstile.Response

/-!
# Values

The values that flow between the steps of a request program, and the carrier of each kind.
-/

namespace Turnstile

/-- A value that a step yields. -/
inductive Value where
  | unit
  | flag (b : Bool)
  | word (n : UInt64)
  | text (s : String)
  | texts (items : List String)
  | bytes (b : Bytes)
  | qos (q : Qos)
  /-- The cleaner of this request with this name. -/
  | handle (id : Nat)
  | response (r : Response)
  deriving DecidableEq, Repr

instance : Inhabited Value := ⟨.unit⟩

/-- A value as text. What a handle shows depends on its cleaner and is not said here. -/
def Value.plainText : Value → String
  | .unit => "()"
  | .flag b => Text.inspectBool b
  | .word n => toString n.toNat
  | .text s => s
  | .texts items => "[" ++ ",".intercalate items ++ "]"
  | .bytes b => "0x" ++ b.toHex
  | .qos q => q.name
  | .handle _ => "handle"
  | .response r => "response:" ++ toString r.status

/-- A handle as text, by whether its cleaner has been started. -/
def Value.handleText (started : Bool) : String := "handle:" ++ Text.inspectBool started

namespace Kind

/-- The type of the values of a kind. -/
abbrev Carrier : Kind → Type
  | .unit => Unit
  | .flag => Bool
  | .word => UInt64
  | .text => String
  | .texts => List String
  | .bytes => Bytes
  | .qos => Qos
  | .handle => Nat
  | .response => Response
  | .any => Value

/-- A value of a kind as a value. -/
def inject : (k : Kind) → k.Carrier → Value
  | .unit, _ => .unit
  | .flag, b => .flag b
  | .word, n => .word n
  | .text, s => .text s
  | .texts, items => .texts items
  | .bytes, b => .bytes b
  | .qos, q => .qos q
  | .handle, id => .handle id
  | .response, r => .response r
  | .any, v => v

/-- A value as one of a kind, if it is one. -/
def project? : (k : Kind) → Value → Option k.Carrier
  | .unit, .unit => some ()
  | .flag, .flag b => some b
  | .word, .word n => some n
  | .text, .text s => some s
  | .texts, .texts items => some items
  | .bytes, .bytes b => some b
  | .qos, .qos q => some q
  | .handle, .handle id => some id
  | .response, .response r => some r
  | .any, v => some v
  | _, _ => none

@[simp] theorem project?_inject (k : Kind) (x : k.Carrier) : k.project? (k.inject x) = some x := by
  cases k <;> rfl

theorem inject_of_project? {k : Kind} {v : Value} {x : k.Carrier} (h : k.project? v = some x) :
    k.inject x = v := by
  cases k <;> cases v <;> cases h <;> rfl

end Kind

end Turnstile
