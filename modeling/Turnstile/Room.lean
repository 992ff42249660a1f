import Turnstile.Fault

/-!
# Room in memory

Whoever knows how many things will have to be kept asks for their room in advance. More than one
block of memory can have is refused before anything is tried.
-/

namespace Turnstile

namespace Room

/-- The most bytes that a block can have. -/
def maxBytes : Nat := 9223372036854775800

/-- Ask for the room of `count` things that take `size` bytes each. -/
def ask (count size : Nat) : Except Fault Unit :=
  if count * size ≤ maxBytes then .ok () else .error (.text "capacity overflow")

end Room

end Turnstile
