import Std.Data.TreeSet
import Turnstile.Text.Inspect
import Turnstile.Text.Lower

/-!
# Request metadata

The request line, headers, cookies and query parameters of one request, with look-up by name.
Header names are equal if they differ in the case of ASCII letters only; cookie and parameter
names are compared exactly.
-/

namespace Turnstile

/-- Pairs of a name and a value, in the order of arrival. -/
abbrev Pairs := List (String × String)

/-- What two header names have in common if they are the same. -/
def headerKey (name : String) : String := Text.lower name

/-- What two names have in common if they are the same and case matters. -/
def exactKey (name : String) : String := name

/-- The values of the pairs whose name has the same key as `name`, in order. -/
def valuesBy (key : String → String) (name : String) (pairs : Pairs) : List String :=
  let wanted := key name
  (pairs.filter fun pair ↦ key pair.1 == wanted).map Prod.snd

/-- The names whose keys are not in `seen`, each as it comes first. -/
def namesBeyond (key : String → String) (seen : Std.TreeSet String) : Pairs → List String
  | [] => []
  | (name, _) :: pairs =>
    if key name ∈ seen then namesBeyond key seen pairs
    else name :: namesBeyond key (seen.insert (key name)) pairs

/-- The names of the pairs with distinct keys, each as it comes first. -/
def namesBy (key : String → String) (pairs : Pairs) : List String := namesBeyond key ∅ pairs

/-- What is known of a request before its body is read. -/
structure Metadata where
  /-- The method of the request line. -/
  method : String
  /-- The path without the query. -/
  path : String
  /-- Header pairs. -/
  headers : Pairs
  /-- Cookie pairs. -/
  cookies : Pairs
  /-- Query parameter pairs. -/
  parameters : Pairs
  deriving DecidableEq, Repr, Inhabited

namespace Metadata

/-- The distinct header names, each spelled as it came first. -/
def headerNames (m : Metadata) : List String := namesBy headerKey m.headers

/-- All values of a header. -/
def header (m : Metadata) (name : String) : List String := valuesBy headerKey name m.headers

/-- All values of a cookie. -/
def cookie (m : Metadata) (name : String) : List String := valuesBy exactKey name m.cookies

/-- The distinct names of the query parameters. -/
def parameterNames (m : Metadata) : List String := namesBy exactKey m.parameters

/-- All values of a query parameter. -/
def parameter (m : Metadata) (name : String) : List String :=
  valuesBy exactKey name m.parameters

/-- The metadata as text. -/
def inspect (m : Metadata) : String :=
  Text.inspectRecord "RequestMetadata"
    [("method", Text.quote m.method), ("path", Text.quote m.path),
      ("headers", Text.inspectPairs m.headers), ("cookies", Text.inspectPairs m.cookies),
      ("parameters", Text.inspectPairs m.parameters)]

end Metadata

end Turnstile
