import Turnstile.Json

/-!
# Tokens of JSON

Cutting a text into the tokens of JSON. Blanks between tokens are dropped; a character that
belongs to no token makes the whole text unreadable.
-/

namespace Turnstile

namespace Json

/-- A token. -/
inductive Token where
  | openArray
  | closeArray
  | openObject
  | closeObject
  | comma
  | colon
  /-- A text. -/
  | text (s : Json.Text)
  /-- A value of one token that is no text. -/
  | leaf (value : Json)

/-- The character may stand between tokens. -/
def isGap (c : Char) : Bool := c = ' ' || c = '\n' || c = '\t' || c = '\r'

/-- The token of one punctuation character. -/
def punctuation? (c : Char) : Option Token :=
  match c with
  | '[' => some .openArray
  | ']' => some .closeArray
  | '{' => some .openObject
  | '}' => some .closeObject
  | ',' => some .comma
  | ':' => some .colon
  | _ => none

/-! ## Texts -/

/-- The value of a hexadecimal digit. -/
def hexValue? (c : Char) : Option Nat :=
  if c.isDigit then some (c.toNat - 48)
  else if 'a' ≤ c ∧ c ≤ 'f' then some (c.toNat - 87)
  else if 'A' ≤ c ∧ c ≤ 'F' then some (c.toNat - 55)
  else none

/-- The value of four hexadecimal digits. -/
def hexUnit? (a b c d : Char) : Option Nat := do
  let a ← hexValue? a
  let b ← hexValue? b
  let c ← hexValue? c
  let d ← hexValue? d
  return ((a * 16 + b) * 16 + c) * 16 + d

/-- The character that a one-letter escape stands for. -/
def unescapeLetter? (c : Char) : Option Char :=
  match c with
  | '"' => some '"'
  | '\\' => some '\\'
  | '/' => some '/'
  | 'b' => some '\x08'
  | 'f' => some '\x0c'
  | 'n' => some '\n'
  | 'r' => some '\r'
  | 't' => some '\t'
  | _ => none

/-- The characters before the closing quote, if all of them may stand in a text. Those before
them are given newest first. -/
def literalAfter? (before : List Char) : List Char → Option (List Char)
  | [] => none
  | '"' :: _ => some before.reverse
  | '\\' :: 'u' :: a :: b :: c :: d :: rest =>
    match hexUnit? a b c d with
    | some _ => literalAfter? (d :: c :: b :: a :: 'u' :: '\\' :: before) rest
    | none => none
  | '\\' :: c :: rest =>
    match unescapeLetter? c with
    | some _ => literalAfter? (c :: '\\' :: before) rest
    | none => none
  | c :: rest => if c.val < 0x20 then none else literalAfter? (c :: before) rest

/-- The characters that a literal stands for, unless an escape names half of a surrogate pair.
Those before them are given newest first. -/
def unescapeAfter? (before : List Char) : List Char → Option (List Char)
  | [] => some before.reverse
  | '\\' :: 'u' :: a :: b :: c :: d :: rest => do
    let unit ← hexUnit? a b c d
    if 0xd800 ≤ unit ∧ unit < 0xdc00 then
      match rest with
      | '\\' :: 'u' :: a :: b :: c :: d :: rest => do
        let low ← hexUnit? a b c d
        if 0xdc00 ≤ low ∧ low < 0xe000 then
          let point := 0x10000 + (unit - 0xd800) * 0x400 + (low - 0xdc00)
          unescapeAfter? (Char.ofNat point :: before) rest
        else none
      | _ => none
    else if 0xdc00 ≤ unit ∧ unit < 0xe000 then none
    else unescapeAfter? (Char.ofNat unit :: before) rest
  | '\\' :: c :: rest => do
    let c ← unescapeLetter? c
    unescapeAfter? (c :: before) rest
  | c :: rest => unescapeAfter? (c :: before) rest

/-- What stands between two quotes. -/
def Text.ofLiteral (literal : List Char) : Json.Text :=
  match unescapeAfter? [] literal with
  | some cs => .plain (String.ofList cs)
  | none => .broken (String.ofList literal)

/-! ## Numbers -/

/-- How many digits stand in front. -/
def countDigits (cs : List Char) : Nat := (cs.takeWhile Char.isDigit).length

/-- How many characters an optional sign takes. -/
def signLength (signs : List Char) : List Char → Nat
  | c :: _ => if c ∈ signs then 1 else 0
  | [] => 0

/-- How many characters a fraction takes; there may be none. -/
def fractionLength? : List Char → Option Nat
  | '.' :: rest => if countDigits rest = 0 then none else some (countDigits rest + 1)
  | _ => some 0

/-- How many characters an exponent takes; there may be none. -/
def exponentLength? : List Char → Option Nat
  | c :: rest =>
    if c = 'e' ∨ c = 'E' then
      let sign := signLength ['+', '-'] rest
      let digits := countDigits (rest.drop sign)
      if digits = 0 then none else some (digits + sign + 1)
    else some 0
  | [] => some 0

/-- How many characters the number in front takes: all of them, and those before its fraction. -/
def numberLength? (cs : List Char) : Option (Nat × Nat) := do
  let sign := signLength ['-'] cs
  let whole := cs.drop sign
  let digits := countDigits whole
  if digits = 0 ∨ (1 < digits ∧ whole.head? = some '0') then none
  let front := sign + digits
  let fraction ← fractionLength? (cs.drop front)
  let exponent ← exponentLength? (cs.drop (front + fraction))
  return (front + fraction + exponent, front)

/-- The value of digits. -/
def digitsValue (cs : List Char) : Nat :=
  cs.foldl (fun n c ↦ n * 10 + (c.toNat - 48)) 0

/-- The number of a literal of which `front` characters stand before its fraction. A negative zero
is no integer. -/
def numberOfLiteral (literal : List Char) (front : Nat) : Json :=
  if front = literal.length then
    match literal with
    | '-' :: digits =>
      if digitsValue digits = 0 then .real (String.ofList literal)
      else .integer (-(digitsValue digits : Int))
    | digits => .integer (digitsValue digits)
  else .real (String.ofList literal)

/-! ## The whole text -/

/-- The literal names, with the values they stand for. -/
def names : List (List Char × Json) :=
  [("null".toList, .null), ("true".toList, .bool true), ("false".toList, .bool false)]

/-- The tokens of a text behind those read before, which are given newest first. -/
def tokensAfter? (before : List Token) : List Char → Option (List Token)
  | [] => some before.reverse
  | c :: rest =>
    if isGap c then tokensAfter? before rest
    else match punctuation? c with
    | some token => tokensAfter? (token :: before) rest
    | none =>
      if c = '"' then
        match literalAfter? [] rest with
        | some literal =>
          tokensAfter? (.text (.ofLiteral literal) :: before) (rest.drop (literal.length + 1))
        | none => none
      else if c = '-' ∨ c.isDigit then
        match numberLength? (c :: rest) with
        | some (n, front) =>
          let number := numberOfLiteral ((c :: rest).take n) front
          tokensAfter? (.leaf number :: before) (rest.drop (n - 1))
        | none => none
      else
        match names.find? fun name ↦ name.1.isPrefixOf (c :: rest) with
        | some (name, value) => tokensAfter? (.leaf value :: before) (rest.drop (name.length - 1))
        | none => none
termination_by cs => cs.length
decreasing_by all_goals simp only [List.length_cons, List.length_drop]; omega

/-- The tokens of a text. -/
def tokens? (cs : List Char) : Option (List Token) := tokensAfter? [] cs

end Json

end Turnstile
