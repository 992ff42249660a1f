import Turnstile.Bytes

/-!
# UTF-8 with broken stretches

Bytes that are meant to be UTF-8 but need not be. `segments` cuts them into characters and broken
stretches; a broken stretch is the longest beginning of a character that the next byte does not
go on with, or one byte that begins no character.
-/

namespace Turnstile

namespace Text

/-- A stretch of bytes that is a character, or that is none. -/
inductive Segment where
  /-- The bytes of one character. -/
  | char (c : Char)
  /-- Bytes that begin a character without completing it, or one that begins none. -/
  | broken (bytes : Bytes)
  deriving DecidableEq, Repr

/-- The ranges for the bytes that must follow `lead`, or `none` if it begins no character. -/
def followers (lead : UInt8) : Option (List (UInt8 × UInt8)) :=
  let tail : UInt8 × UInt8 := (0x80, 0xbf)
  if lead < 0x80 then some []
  else if lead < 0xc2 then none
  else if lead < 0xe0 then some [tail]
  else if lead = 0xe0 then some [(0xa0, 0xbf), tail]
  else if lead = 0xed then some [(0x80, 0x9f), tail]
  else if lead < 0xf0 then some [tail, tail]
  else if lead = 0xf0 then some [(0x90, 0xbf), tail, tail]
  else if lead < 0xf4 then some [tail, tail, tail]
  else if lead = 0xf4 then some [(0x80, 0x8f), tail, tail]
  else none

/-- How many of the bytes lie in the ranges, one after the other from the front. -/
def countFollowing : List (UInt8 × UInt8) → Bytes → Nat
  | (low, high) :: ranges, b :: bytes =>
    if low ≤ b && b ≤ high then countFollowing ranges bytes + 1 else 0
  | _, _ => 0

/-- The character with this first byte and these following bytes. -/
def assemble (lead : UInt8) (tail : Bytes) : Char :=
  let front :=
    match tail.length with
    | 0 => lead.toNat
    | 1 => lead.toNat % 32
    | 2 => lead.toNat % 16
    | _ => lead.toNat % 8
  Char.ofNat (tail.foldl (fun point b ↦ point * 64 + b.toNat % 64) front)

/-- The bytes cut into characters and broken stretches. -/
def segments : Bytes → List Segment
  | [] => []
  | lead :: rest =>
    match followers lead with
    | none => .broken [lead] :: segments rest
    | some ranges =>
      let count := countFollowing ranges rest
      let tail := rest.take count
      let whole := count = ranges.length
      (if whole then .char (assemble lead tail) else .broken (lead :: tail)) ::
        segments (rest.drop count)
termination_by bytes => bytes.length
decreasing_by
  all_goals simp only [List.length_cons, List.length_drop]; omega

/-- The text of the bytes, with the replacement character for every broken stretch. -/
def decodeLossy (bytes : Bytes) : String :=
  String.ofList <| (segments bytes).map fun
    | .char c => c
    | .broken _ => '\ufffd'

/-- The text of the bytes, if no stretch of them is broken. -/
def decode? (bytes : Bytes) : Option String :=
  String.ofList <$> (segments bytes).mapM fun
    | .char c => some c
    | .broken _ => none

end Text

end Turnstile
