import Turnstile.Text.Quoted

/-!
# Values as text

One-line texts of structured values for logs: `Name { field: value }`, `Name(value)`, lists in
brackets, pairs in parentheses.
-/

namespace Turnstile

namespace Text

/-- Texts with a comma and a blank between them. -/
def commas (parts : List String) : String :=
  ", ".intercalate parts

/-- A record with named fields. -/
def inspectRecord (name : String) (fields : List (String × String)) : String :=
  name ++ " \x7b " ++ commas (fields.map fun field ↦ field.1 ++ ": " ++ field.2) ++ " \x7d"

/-- A record of which only these fields are shown. -/
def inspectPartial (name : String) (fields : List (String × String)) : String :=
  let parts := fields.map fun field ↦ field.1 ++ ": " ++ field.2
  name ++ " \x7b " ++ commas (parts ++ [".."]) ++ " \x7d"

/-- A name applied to values. -/
def inspectTuple (name : String) (parts : List String) : String :=
  name ++ "(" ++ commas parts ++ ")"

/-- A list of values. -/
def inspectList (parts : List String) : String :=
  "[" ++ commas parts ++ "]"

/-- Pairs of texts. -/
def inspectPairs (pairs : List (String × String)) : String :=
  inspectList (pairs.map fun pair ↦ "(" ++ quote pair.1 ++ ", " ++ quote pair.2 ++ ")")

/-- A value that may be missing. -/
def inspectOption : Option String → String
  | none => "None"
  | some part => inspectTuple "Some" [part]

/-- A truth value. -/
def inspectBool (b : Bool) : String := if b then "true" else "false"

end Text

end Turnstile
