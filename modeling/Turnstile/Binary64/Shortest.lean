import Turnstile.Binary64

/-!
# Shortest decimals

The decimal with the fewest digits among those that round to a number and, where several have as
few, the one nearest to it.

All of it is arithmetic on integers: numbers are counted in units of a power of ten that is small
enough for the number itself and the number `2 ^ exponent` to be whole.
-/

namespace Turnstile

/-- The number `digits * 10 ^ exponent`. -/
structure Decimal where
  /-- The digits. -/
  digits : Nat
  /-- The exponent of ten. -/
  exponent : Int
  deriving DecidableEq, Repr, Inhabited

namespace Binary64

/-- The exponent of ten of the unit in which a number is counted. -/
def unitExponent (x : Binary64) : Int := min x.exponent 0

/-- How many units `2 ^ exponent` is. -/
def step (x : Binary64) : Nat := Nat.pow 5 (-x.exponent).toNat <<< x.exponent.toNat

/-- How many units a number is. -/
def units (x : Binary64) : Nat := x.significand * x.step

/-- The next number below is only half as far away as the next one above. -/
def IsNarrow (x : Binary64) : Prop :=
  2 * x.significand = significandBound ∧ minExponent < x.exponent

instance (x : Binary64) : Decidable x.IsNarrow := inferInstanceAs (Decidable (_ ∧ _))

/-- A count of units rounds to a number: it lies between the middles to the two next numbers. The
middles themselves round to the number whose significand is even. -/
def ReadsAs (x : Binary64) (count : Nat) : Prop :=
  let lower := 4 * x.units - (if x.IsNarrow then x.step else 2 * x.step)
  let upper := 4 * x.units + 2 * x.step
  if x.significand % 2 = 0 then lower ≤ 4 * count ∧ 4 * count ≤ upper
  else lower < 4 * count ∧ 4 * count < upper

instance (x : Binary64) (count : Nat) : Decidable (x.ReadsAs count) := by
  unfold ReadsAs; infer_instance

/-- The multiple of `10 ^ power` units that rounds to a number, if there is one: its factor. Of
two the nearer is taken, and the even one if both are as near. -/
def candidate? (x : Binary64) (power : Nat) : Option Nat :=
  let grid := Nat.pow 10 power
  let below := x.units / grid
  let above := below + 1
  if x.ReadsAs (below * grid) then
    if x.ReadsAs (above * grid) then
      let rest := 2 * (x.units % grid)
      if rest < grid ∨ (rest = grid ∧ below % 2 = 0) then some below else some above
    else some below
  else if x.ReadsAs (above * grid) then some above
  else none

/-- The shortest decimal among the multiples of `10 ^ power` units. The number itself is one of
the multiples of a single unit. -/
def search (x : Binary64) : Nat → Decimal
  | 0 => ⟨x.units, x.unitExponent⟩
  | power + 1 =>
    match x.candidate? (power + 1) with
    | some digits => ⟨digits, x.unitExponent + (power + 1 : Nat)⟩
    | none => search x power

/-- No fewer than the digits of a number. -/
def digitBound (n : Nat) : Nat := (n.log2 + 1) * 30103 / 100000 + 1

/-- The shortest decimal that rounds to a number. -/
def shortest (x : Binary64) : Decimal := x.search (digitBound x.units)

end Binary64

end Turnstile
