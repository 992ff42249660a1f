import Turnstile.Text.Hidden

/-!
# Quoted text

A text between double quotes, with the quote, the backslash and every character that has no shape
of its own written as an escape.
-/

namespace Turnstile

namespace Text

/-- The digits of a number in base sixteen, lower case, without leading zeros. -/
def hexDigits (n : Nat) : String :=
  String.ofList (Nat.toDigits 16 n)

/-- A character as it stands in quoted text. -/
def escape (c : Char) : String :=
  if c = '"' then "\\\""
  else if c = '\\' then "\\\\"
  else if c = '\n' then "\\n"
  else if c = '\r' then "\\r"
  else if c = '\t' then "\\t"
  else if c = '\x00' then "\\0"
  else if isHidden c then "\\u\x7b" ++ hexDigits c.toNat ++ "\x7d"
  else c.toString

/-- The characters of a quoted text, without the quotes around them. -/
def escaped (s : String) : String :=
  s.toList.foldl (fun out c ↦ out ++ escape c) ""

/-- A text between quotes. -/
def quote (s : String) : String :=
  "\"" ++ escaped s ++ "\""

end Text

end Turnstile
