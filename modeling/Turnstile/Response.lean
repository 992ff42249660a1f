import Turnstile.Bytes
import Turnstile.Json
import Turnstile.Metadata

/-!
# Responses

A response is a status, header pairs in the order they are sent, and a body. Besides the general
constructors there are the fixed responses of the scheduler: no route matched, the body is too
large, and the last resort that needs no user code to build.
-/

namespace Turnstile

/-- A complete response. -/
structure Response where
  /-- The status code. -/
  status : Nat
  /-- Header pairs in the order they are sent. -/
  headers : Pairs
  /-- The body. -/
  body : Bytes
  deriving DecidableEq, Repr, Inhabited

namespace Response

/-- A response without headers and body. -/
def empty (status : Nat) : Response := ⟨status, [], []⟩

/-- One more header, after the others. -/
def withHeader (r : Response) (name value : String) : Response :=
  { r with headers := r.headers ++ [(name, value)] }

/-- The same response with another body. -/
def withBody (r : Response) (body : Bytes) : Response := { r with body := body }

/-- A plain text. -/
def text (status : Nat) (body : String) : Response :=
  (empty status).withHeader "content-type" "text/plain; charset=utf-8" |>.withBody (.ofText body)

/-- The last resort: an internal error that cannot fail to be built. -/
def minimal : Response :=
  ⟨500, [("content-type", "text/plain")], .ofText "internal server error"⟩

/-- A JSON value, or the last resort if the value has no JSON text. -/
def json (status : Nat) : Option Json → Response
  | some value =>
    (empty status).withHeader "content-type" "application/json" |>.withBody (.ofText value.render)
  | none => minimal

/-- No route matched. -/
def notFound : Response := text 404 "not found"

/-- The request body exceeds the limit. -/
def tooLarge (limit : Nat) : Response :=
  text 413 ("request body exceeds " ++ toString limit ++ " bytes")

/-- An internal error that names the request it happened to. -/
def internalError (m : Metadata) : Response :=
  json 500 <| some <| .ofMembers
    [("error", .ofString "internal server error"), ("method", .ofString m.method),
      ("path", .ofString m.path)]

/-- The response as text. -/
def inspect (r : Response) : String :=
  Text.inspectRecord "Response"
    [("status", toString r.status), ("headers", Text.inspectPairs r.headers),
      ("body", Text.inspectList (r.body.map fun b ↦ toString b.toNat))]

end Response

end Turnstile
