import Turnstile.Binary64.Shortest
import Turnstile.Json.Token
import Turnstile.Text.Digits

/-!
# Numbers of JSON that are no integers

A number with a fraction or an exponent, and an integer that no 64-bit word holds, stands for a
binary floating-point number and is written by the fewest digits that read as that number. The
digits of a literal count as long as their value fits a 64-bit word.
-/

namespace Turnstile

namespace Json

/-! ## Reading -/

/-- Read digits onto a value as long as it fits a word: the value, and how many digits it took. -/
def readSignificant : Nat → Nat → List Char → Nat × Nat
  | value, taken, [] => (value, taken)
  | value, taken, c :: rest =>
    let next := value * 10 + (c.toNat - 48)
    if Text.maxWord < next then (value, taken) else readSignificant next (taken + 1) rest

/-- The digits of a fraction, if one stands in front. -/
def fractionDigits : List Char → List Char
  | '.' :: rest => rest.takeWhile Char.isDigit
  | _ => []

/-- The exponent that ends a literal, or zero. -/
def exponentOf (literal : List Char) : Int :=
  match literal.dropWhile fun c ↦ c ≠ 'e' ∧ c ≠ 'E' with
  | _ :: '-' :: digits => -(digitsValue digits : Int)
  | _ :: '+' :: digits => digitsValue digits
  | _ :: digits => digitsValue digits
  | [] => 0

/-- The number that a literal without a sign stands for. Every digit before the point that is left
out counts as a power of ten; one behind it is dropped. -/
def magnitude? (literal : List Char) : Option Binary64 :=
  let whole := literal.takeWhile Char.isDigit
  let (value, taken) := readSignificant 0 0 whole
  let (value, places) := readSignificant value 0 (fractionDigits (literal.drop whole.length))
  Binary64.ofDecimal? value ((whole.length - taken : Nat) - places + exponentOf literal)

/-! ## Writing -/

/-- A number whose point stands behind the first `point` digits is written without an exponent
if at most four zeros come between the point and its digits and the point is not behind the
sixteenth of them. -/
def isPositional (point : Int) : Bool := -5 < point && point ≤ 16

/-- A number of zeros. -/
def zeros (count : Nat) : List Char := List.replicate count '0'

/-- Digits with the point behind the first `point` of them. There is always a digit on either side
of the point. -/
def positional (digits : List Char) (point : Int) : List Char :=
  if point ≤ 0 then "0.".toList ++ zeros point.natAbs ++ digits
  else if point < digits.length then
    digits.take point.toNat ++ '.' :: digits.drop point.toNat
  else digits ++ zeros (point.toNat - digits.length) ++ ".0".toList

/-- Digits with the point behind the first of them, and the power of ten that is missing, whose
sign is always written. -/
def scientific (digits : List Char) (point : Int) : List Char :=
  let front := match digits with
    | first :: c :: rest => first :: '.' :: c :: rest
    | digits => digits
  let power := point - 1
  front ++ 'e' :: (if power < 0 then '-' else '+') :: (toString power.natAbs).toList

/-- A decimal as it is written. -/
def layout (d : Decimal) : String :=
  if d.digits = 0 then "0.0"
  else
    let digits := (toString d.digits).toList
    let point := digits.length + d.exponent
    String.ofList (if isPositional point then positional digits point else scientific digits point)

/-- The shortest literal for the number that a literal stands for, if there is such a number. -/
def shortestLiteral? (literal : String) : Option String :=
  match literal.toList with
  | '-' :: digits => (magnitude? digits).map fun x ↦ "-" ++ layout x.shortest
  | digits => (magnitude? digits).map fun x ↦ layout x.shortest

end Json

end Turnstile
