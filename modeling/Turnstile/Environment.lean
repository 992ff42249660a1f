import Std.Data.TreeMap
import Turnstile.Fault
import Turnstile.Text.Quoted
import Turnstile.Text.Utf8

/-!
# Environments

The variables of a process: names with bytes, which are meant to be text but need not be. A zero
byte ends a name and a value, and an equals sign ends a name, so neither can hold one.

A variable and its value are one entry, with an equals sign between them, and a variable is found by
what its entry starts with. So a name that is looked up may reach into the value: `A=B` finds what
follows `B=` in the value of `A`.
-/

namespace Turnstile

namespace Text

/-- Bytes between quotes, with broken stretches written byte by byte. -/
def quoteBytes (bytes : Bytes) : String :=
  let parts := (segments bytes).map fun
    | .char c => escape c
    | .broken bytes => String.join (bytes.map fun b ↦
        "\\x" ++ (Bytes.toHex [b]).map Char.toUpper)
  "\"" ++ String.join parts ++ "\""

end Text

/-- Variables and their values. No name occurs twice. -/
structure Environment where
  /-- The value of each variable. -/
  entries : Std.TreeMap String Bytes

namespace Environment

/-- No variables. -/
def empty : Environment := ⟨∅⟩

/-- The equals sign. -/
def equalsSign : UInt8 := 61

/-- The value of a variable: what follows its name and an equals sign in an entry. What stands
behind the first equals sign of a name is looked for in the value. -/
def get? (env : Environment) (name : String) : Option Bytes :=
  match name.toList.dropWhile (· ≠ '=') with
  | [] => env.entries[name]?
  | _ :: inner =>
    env.entries[String.ofList (name.toList.takeWhile (· ≠ '='))]? >>=
      (Bytes.ofText (String.ofList inner) ++ [equalsSign]).isPrefixOf?

/-- The value of a variable, if it is text. -/
def text? (env : Environment) (name : String) : Option String :=
  env.get? name >>= Text.decode?

/-- Give a variable a value. -/
def set (env : Environment) (name : String) (value : Bytes) : Environment :=
  ⟨env.entries.insert name value⟩

/-- Why a variable cannot have a value, if it cannot. -/
def objection? (name : String) (value : Bytes) : Option String :=
  if '\x00' ∈ name.toList ∨ 0 ∈ value then some "file name contained an unexpected NUL byte"
  else if name = "" ∨ '=' ∈ name.toList then some "Invalid argument (os error 22)"
  else none

/-- Give a variable a value, if it can have it. -/
def assign (env : Environment) (name : String) (value : Bytes) : Except Fault Environment :=
  match objection? name value with
  | none => .ok (env.set name value)
  | some objection => .error <| .text <| "failed to set environment variable `" ++
      Text.quoteBytes (.ofText name) ++ "` to `" ++ Text.quoteBytes value ++ "`: " ++ objection

/-- Give a variable a value, unless it has a text already. -/
def assignMissing (env : Environment) (name value : String) : Except Fault Environment :=
  match env.text? name with
  | some _ => .ok env
  | none => env.assign name (.ofText value)

/-- The variables set one after the other. -/
def ofList (entries : List (String × Bytes)) : Except Fault Environment :=
  entries.foldlM (fun env entry ↦ env.assign entry.1 entry.2) empty

end Environment

end Turnstile
