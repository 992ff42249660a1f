import Turnstile.Json.Number

/-!
# Canonical JSON

Values that mean the same get one form: the members of an object are ordered by name and the last
of several with one name counts, and a number that no 64-bit word holds has its shortest literal.
-/

namespace Turnstile

namespace Json

/-- The least integer that a 64-bit word holds. -/
def minInteger : Int := -9223372036854775808

/-- A 64-bit word holds the integer, with or without a sign. -/
def fitsWord (n : Int) : Bool := minInteger ≤ n && n ≤ Text.maxWord

/-- Give a member a value, where members are ordered by name. -/
def putMember (name : String) (value : Json) :
    List (String × Json) → List (String × Json)
  | [] => [(name, value)]
  | (other, kept) :: members =>
    if name < other then (name, value) :: (other, kept) :: members
    else if name = other then (name, value) :: members
    else (other, kept) :: putMember name value members

mutual

/-- The canonical form of a value. There is none if a text in it names half of a surrogate pair or
if a number in it is too large. -/
def canonical? : Json → Option Json
  | .null => some .null
  | .bool b => some (.bool b)
  | .integer n =>
    if fitsWord n then some (.integer n) else (shortestLiteral? (toString n)).map .real
  | .real literal => (shortestLiteral? literal).map .real
  | .text (.plain s) => some (ofString s)
  | .text (.broken _) => none
  | .array items => (canonicalItems? [] items).map .array
  | .object members => (canonicalMembers? [] members).map ofMembers

/-- The canonical forms of items behind those given already, which stand newest first. -/
def canonicalItems? (before : List Json) : List Json → Option (List Json)
  | [] => some before.reverse
  | item :: items => do
    let item ← canonical? item
    canonicalItems? (item :: before) items

/-- The canonical forms of members behind those given already, which are ordered by name. -/
def canonicalMembers? (before : List (String × Json)) :
    List (Json.Text × Json) → Option (List (String × Json))
  | [] => some before
  | (.broken _, _) :: _ => none
  | (.plain name, value) :: members => do
    let value ← canonical? value
    canonicalMembers? (putMember name value before) members

end

end Json

end Turnstile
