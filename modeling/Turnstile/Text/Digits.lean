/-!
# Decimal numbers within a limit

Reading a decimal number that must not exceed a limit. The digits are read from the left and the
first difficulty decides the error: a character that is no digit, or a value past the limit.
-/

namespace Turnstile

namespace Text

/-- Why a text is no number within the limit. -/
inductive DigitsError where
  /-- There is nothing to read. -/
  | empty
  /-- A character is no decimal digit. -/
  | invalidDigit
  /-- The number exceeds the limit. -/
  | tooLarge
  deriving DecidableEq, Repr

/-- The wording of a failure to read a number. -/
def DigitsError.message : DigitsError → String
  | .empty => "cannot parse integer from empty string"
  | .invalidDigit => "invalid digit found in string"
  | .tooLarge => "number too large to fit in target type"

/-- The largest 64-bit word. -/
def maxWord : Nat := 18446744073709551615

/-- Read digits onto `value`, which must stay within `limit`. -/
def readDigitsOnto (limit : Nat) : Nat → List Char → Except DigitsError Nat
  | value, [] => .ok value
  | value, c :: rest =>
    if c.isDigit then
      let value := value * 10 + (c.toNat - '0'.toNat)
      if limit < value then .error .tooLarge else readDigitsOnto limit value rest
    else .error .invalidDigit

/-- Read a decimal number of at most `limit`. A plus sign may stand before its digits. -/
def readDigits (limit : Nat) : List Char → Except DigitsError Nat
  | [] => .error .empty
  | ['+'] => .error .invalidDigit
  | '+' :: rest => readDigitsOnto limit 0 rest
  | cs => readDigitsOnto limit 0 cs

end Text

end Turnstile
