/-!
# Bytes

Sequences of bytes, as request and response bodies carry them.
-/

namespace Turnstile

/-- A sequence of bytes. -/
abbrev Bytes := List UInt8

namespace Bytes

/-- The UTF-8 bytes of a text. -/
def ofText (s : String) : Bytes := s.toUTF8.data.toList

/-- One hexadecimal digit, lower case. -/
def hexDigit (n : UInt8) : Char :=
  if n < 10 then Char.ofNat (n.toNat + 48) else Char.ofNat (n.toNat + 87)

/-- The bytes as pairs of hexadecimal digits, lower case. -/
def toHex (bytes : Bytes) : String :=
  bytes.foldl (fun out b ↦ (out.push (hexDigit (b / 16))).push (hexDigit (b % 16))) ""

end Bytes

end Turnstile
