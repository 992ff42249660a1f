import Turnstile.Routine.Run

/-!
# Calculators

The smallest use of the engine: routines over 64-bit words that can ask for a word by name. A
rule turns a word into a routine; a rule that receives a text instead of a word breaks off.
-/

namespace Turnstile

namespace Calculator

/-- What a calculator passes on. -/
inductive Reading where
  | word (n : UInt64)
  | text (s : String)
  deriving DecidableEq, Repr

instance : Inhabited Reading := ⟨.word 0⟩

/-- What a calculator asks for. -/
structure Question where
  /-- The name of the word it asks for. -/
  name : String
  deriving DecidableEq, Repr

end Calculator

/-- A routine over words. -/
abbrev Calculator := Routine Calculator.Question Calculator.Reading

namespace Calculator

/-- What a continuation does with the word it receives. -/
inductive Rule where
  /-- Add a word. -/
  | add (n : UInt64)
  /-- Multiply by a word. -/
  | mul (n : UInt64)
  /-- Replace the word. -/
  | const (n : UInt64)
  /-- Replace the word by a text. -/
  | text (s : String)
  /-- Ask for a word. -/
  | ask (name : String)
  /-- Ask for a word and add it. -/
  | askAdd (name : String)
  /-- Apply the rules from the left, with binds nested to the left. -/
  | comp (rules : List Rule)
  /-- Apply the rules from the left, with binds nested to the right. -/
  | nest (rules : List Rule)
  /-- Pass through `count` binds nested to the right and add their number. -/
  | down (count : Nat)
  /-- Break off. -/
  | fault (f : Fault)

instance : Inhabited Rule := ⟨.nest []⟩

/-- Go on with the word that a reading should be. -/
def onWord (next : UInt64 → Calculator) : Reading → Calculator
  | .word n => next n
  | .text _ => .raise (.wrongKind .word)

/-- Yield a word. -/
def word (n : UInt64) : Calculator := .pure (.word n)

/-- Pass through `count` binds, then yield `total`. -/
def descend (total : UInt64) : Nat → Calculator
  | 0 => word total
  | count + 1 => (word 0).flatMap fun _ ↦ descend total count

mutual

/-- The routine that a rule makes of a word. -/
def Rule.apply : Rule → UInt64 → Calculator
  | .add n, x => word (x + n)
  | .mul n, x => word (x * n)
  | .const n, _ => word n
  | .text s, _ => .pure (.text s)
  | .ask name, _ => .suspend ⟨name⟩
  | .askAdd name, x => (Routine.suspend ⟨name⟩).flatMap (onWord fun a ↦ word (a + x))
  | .comp rules, x => bindAll rules (word x)
  | .nest rules, x => bindNested rules x
  | .down count, x => descend (x + .ofNat count) count
  | .fault f, _ => .raise f

/-- Bind the rules one after the other. -/
def bindAll : List Rule → Calculator → Calculator
  | [], routine => routine
  | rule :: rules, routine => bindAll rules (routine.flatMap (onWord rule.apply))

/-- Bind the rules inside one another. -/
def bindNested : List Rule → UInt64 → Calculator
  | [], x => word x
  | rule :: rules, x => (rule.apply x).flatMap (onWord (bindNested rules))

end

end Calculator

end Turnstile
