/-!
# Sets of characters as ranges

A property of characters is given by its ranges of code points, in increasing order.
-/

namespace Turnstile

namespace Text

/-- The code point lies in one of the ranges, ends included. -/
def inRanges (ranges : Array (Nat × Nat)) (point : Nat) : Bool :=
  ranges.any fun range ↦ range.1 ≤ point && point ≤ range.2

end Text

end Turnstile
