import Turnstile.Text.Inspect

/-!
# Cookies

A cookie that a response sets, and the value of the header that sets it.
-/

namespace Turnstile

/-- A cookie to set. -/
structure Cookie where
  /-- The name. -/
  name : String
  /-- The value. -/
  value : String
  /-- The path it is valid for. -/
  path : Option String
  /-- How many seconds it is valid for. -/
  maxAge : Option Nat
  /-- Hidden from scripts. -/
  httpOnly : Bool
  /-- Sent over secure connections only. -/
  secure : Bool
  deriving DecidableEq, Repr

namespace Cookie

/-- The value of the header that sets the cookie. -/
def headerValue (c : Cookie) : String :=
  c.name ++ "=" ++ c.value
    ++ (match c.path with | some path => "; Path=" ++ path | none => "")
    ++ (match c.maxAge with | some seconds => "; Max-Age=" ++ toString seconds | none => "")
    ++ (if c.httpOnly then "; HttpOnly" else "")
    ++ (if c.secure then "; Secure" else "")

/-- The cookie as text. -/
def inspect (c : Cookie) : String :=
  Text.inspectRecord "Cookie"
    [("name", Text.quote c.name), ("value", Text.quote c.value),
      ("path", Text.inspectOption (c.path.map Text.quote)),
      ("max_age", Text.inspectOption (c.maxAge.map toString)),
      ("http_only", Text.inspectBool c.httpOnly), ("secure", Text.inspectBool c.secure)]

end Cookie

end Turnstile
