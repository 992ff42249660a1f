/-!
# JSON values

The values of JSON and their compact text. A number with a fraction or an exponent is kept as it
was written, and so is a text with an escape that names half of a surrogate pair: neither has a
value here, but both are JSON.
-/

namespace Turnstile

namespace Json

/-- A control character by its number. -/
def controlEscape (c : Char) : String :=
  let hex (n : Nat) : Char := if n < 10 then Char.ofNat (n + 48) else Char.ofNat (n + 87)
  "\\u00" ++ String.ofList [hex (c.toNat / 16), hex (c.toNat % 16)]

/-- A character as it stands in a JSON text. -/
def escape (c : Char) : String :=
  if c = '"' then "\\\""
  else if c = '\\' then "\\\\"
  else if c = '\n' then "\\n"
  else if c = '\r' then "\\r"
  else if c = '\t' then "\\t"
  else if c = '\x08' then "\\b"
  else if c = '\x0c' then "\\f"
  else if c.val < 0x20 then controlEscape c
  else c.toString

/-- A text between quotes, as JSON. -/
def quote (s : String) : String :=
  "\"" ++ s.toList.foldl (fun out c ↦ out ++ escape c) "" ++ "\""

/-- What stands between the quotes of a JSON text. -/
inductive Text where
  /-- A text. -/
  | plain (s : String)
  /-- Escapes that name no text, as they were written. -/
  | broken (literal : String)
  deriving DecidableEq, Repr

/-- A text in quotes. -/
def Text.render : Text → String
  | .plain s => quote s
  | .broken literal => "\"" ++ literal ++ "\""

end Json

/-- A JSON value. -/
inductive Json where
  /-- The empty value. -/
  | null
  /-- A truth value. -/
  | bool (b : Bool)
  /-- A number without fraction and exponent. -/
  | integer (n : Int)
  /-- Any other number, as it was written. -/
  | real (literal : String)
  /-- A text. -/
  | text (s : Json.Text)
  /-- A list. -/
  | array (items : List Json)
  /-- Named members, in order. -/
  | object (members : List (Json.Text × Json))
  deriving Repr, Inhabited

namespace Json

/-- A text value. -/
def ofString (s : String) : Json := .text (.plain s)

/-- A number value. -/
def ofNat (n : Nat) : Json := .integer n

/-- The value of a member. Of several with one name the last counts. -/
def member? (name : String) : Json → Option Json
  | .object members =>
    (members.reverse.find? fun member ↦ decide (member.1 = .plain name)).map (·.2)
  | _ => none

/-- An object with these members. -/
def ofMembers (members : List (String × Json)) : Json :=
  .object (members.map fun member ↦ (.plain member.1, member.2))

mutual

/-- The compact text of a value. -/
def render : Json → String
  | .null => "null"
  | .bool true => "true"
  | .bool false => "false"
  | .integer n => toString n
  | .real literal => literal
  | .text s => s.render
  | .array items => "[" ++ renderItems items ++ "]"
  | .object members => "\x7b" ++ renderMembers members ++ "\x7d"

/-- Items with commas between them. -/
def renderItems : List Json → String
  | [] => ""
  | [item] => render item
  | item :: items => render item ++ "," ++ renderItems items

/-- Members with commas between them. -/
def renderMembers : List (Json.Text × Json) → String
  | [] => ""
  | [(name, value)] => name.render ++ ":" ++ render value
  | (name, value) :: members => name.render ++ ":" ++ render value ++ "," ++ renderMembers members

end

end Json

end Turnstile
