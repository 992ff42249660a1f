import Turnstile.Text.Blank
import Turnstile.Text.Lower

/-!
# Service classes

The class of a request decides how soon it gets a worker. Classes are ordered by rank, `low`
below `normal` below `high` below `critical`.
-/

namespace Turnstile

/-- The service class of a request. -/
inductive Qos where
  /-- Background work. -/
  | low
  /-- Regular traffic. -/
  | normal
  /-- Traffic that must not wait long. -/
  | high
  /-- Served before everything else that waits. -/
  | critical
  deriving DecidableEq, Repr

namespace Qos

instance : Inhabited Qos := ⟨.normal⟩

/-- Every class, from the lowest rank to the highest. -/
def all : List Qos := [.low, .normal, .high, .critical]

/-- The position of a class in the order of importance. -/
def rank : Qos → Nat
  | .low => 0
  | .normal => 1
  | .high => 2
  | .critical => 3

/-- The name of a class in headers and settings. -/
def name : Qos → String
  | .low => "low"
  | .normal => "normal"
  | .high => "high"
  | .critical => "critical"

/-- A class as text in logs. -/
def inspect : Qos → String
  | .low => "Low"
  | .normal => "Normal"
  | .high => "High"
  | .critical => "Critical"

/-- The class with exactly this name. -/
def named? (s : String) : Option Qos := all.find? (·.name = s)

/-- Why a text names no class: what is left of it after trimming and lower-casing. -/
structure UnknownName where
  /-- The trimmed text in lower case. -/
  name : String
  deriving DecidableEq, Repr

/-- The wording of the refusal. -/
def UnknownName.message (e : UnknownName) : String :=
  "unknown qos class `" ++ e.name ++ "`"

/-- The class a text names, whatever the case of its letters and the blanks around it. -/
def parse (s : String) : Except UnknownName Qos :=
  let name := Text.lower (Text.trim s)
  match named? name with
  | some qos => .ok qos
  | none => .error ⟨name⟩

@[simp] theorem named?_name (q : Qos) : named? q.name = some q := by
  cases q <;> decide

end Qos

end Turnstile
