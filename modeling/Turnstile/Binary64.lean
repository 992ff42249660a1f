/-!
# Binary floating point

Numbers `significand * 2 ^ exponent` of at most 53 significant bits, without a sign. An operation
gives its exact result rounded once: to the nearest number, and from halfway between two to the
one whose significand is even. A result beyond the largest number is no number.
-/

namespace Turnstile

/-- The number `significand * 2 ^ exponent`. -/
structure Binary64 where
  /-- The significant bits. -/
  significand : Nat
  /-- The exponent of two. -/
  exponent : Int
  deriving DecidableEq, Repr, Inhabited

namespace Binary64

/-- The exponent of the numbers next to zero. -/
def minExponent : Int := -1074

/-- The exponent of the largest numbers. -/
def maxExponent : Int := 971

/-- A significand is less than this. -/
def significandBound : Nat := 9007199254740992

/-- Nothing. -/
def zero : Binary64 := ⟨0, minExponent⟩

/-! ## Rounding -/

/-- The integer nearest to a ratio. From halfway between two it is the even one. -/
def roundHalfEven (num den : Nat) : Nat :=
  let below := num / den
  let rest := num % den
  if 2 * rest < den ∨ (2 * rest = den ∧ below % 2 = 0) then below else below + 1

/-- The exponent of the largest power of two that is at most a ratio. -/
def floorLog (num den : Nat) : Int :=
  let guess := (num.log2 : Int) - den.log2
  if den <<< num.log2 ≤ num <<< den.log2 then guess else guess - 1

/-- The exponent of the numbers around `num / den * 2 ^ scale`: there they are `2 ^ quantum`
apart. -/
def quantum (num den : Nat) (scale : Int) : Int :=
  max (floorLog num den + scale - 52) minExponent

/-- The number nearest to `num / den * 2 ^ scale`. -/
def round? (num den : Nat) (scale : Int) : Option Binary64 :=
  if num = 0 then some zero
  else
    let exponent := quantum num den scale
    let significand := roundHalfEven (num <<< (scale - exponent).toNat)
      (den <<< (exponent - scale).toNat)
    let x : Binary64 :=
      if significand < significandBound then ⟨significand, exponent⟩
      else ⟨significand / 2, exponent + 1⟩
    if x.exponent ≤ maxExponent then some x else none

/-! ## Arithmetic -/

/-- The number nearest to an integer. -/
def ofNat? (n : Nat) : Option Binary64 := round? n 1 0

/-- The product. -/
def mul? (x y : Binary64) : Option Binary64 :=
  round? (x.significand * y.significand) 1 (x.exponent + y.exponent)

/-- The quotient. -/
def div? (x y : Binary64) : Option Binary64 :=
  round? x.significand y.significand (x.exponent - y.exponent)

/-! ## Decimals -/

/-- The largest power of ten that is a number. -/
def maxPower : Nat := 308

/-- The product with a power of ten. -/
def scaleUp? (x : Binary64) (power : Nat) : Option Binary64 :=
  if x.significand = 0 then some x
  else if power ≤ maxPower then ofNat? (.pow 10 power) >>= mul? x
  else none

/-- The quotient by the largest power of ten, taken a number of times. -/
def shrink? : Nat → Binary64 → Option Binary64
  | 0, x => some x
  | times + 1, x =>
    if x.significand = 0 then some x
    else ofNat? (.pow 10 maxPower) >>= div? x >>= shrink? times

/-- The quotient by a power of ten. A power that is no number itself is split: first the largest
one is taken as often as something is left. -/
def scaleDown? (x : Binary64) (power : Nat) : Option Binary64 :=
  let times := (power - 1) / maxPower
  shrink? times x >>= fun y ↦ ofNat? (.pow 10 (power - maxPower * times)) >>= div? y

/-- The number that `digits * 10 ^ exponent` stands for. The digits are rounded first and the
result of scaling them is rounded again, so this need not be the nearest number. -/
def ofDecimal? (digits : Nat) (exponent : Int) : Option Binary64 := do
  let x ← ofNat? digits
  if exponent < 0 then scaleDown? x exponent.natAbs else scaleUp? x exponent.natAbs

end Binary64

end Turnstile
