import Turnstile.Journal
import Turnstile.Step

/-!
# Routing by path segments

A router tries its routes in the order they were added and takes the first whose path matches
whole segments of the path in front: `/api` matches `/api` and `/api/users` but not `/apix`. What
is left of the path is what the chosen step sees as its path, so routers can be nested.
-/

namespace Turnstile

namespace Router

/-- The characters without the slashes at their end. -/
def dropSlashEnd (cs : List Char) : List Char := (cs.reverse.dropWhile (· == '/')).reverse

/-- What is left of `path` behind `front`, if `path` begins with it. -/
def stripFront? : (front path : List Char) → Option (List Char)
  | [], path => some path
  | _ :: _, [] => none
  | a :: front, b :: path => if a = b then stripFront? front path else none

/-- What is left of `path` behind the segments of `front`, if it begins with them. -/
def stripSegments? (path front : List Char) : Option (List Char) :=
  match dropSlashEnd front with
  | [] => some path
  | front =>
    match stripFront? front path with
    | some [] => some []
    | some ('/' :: rest) => some ('/' :: rest)
    | _ => none

/-- What is left of a path behind a prefix that ends where a segment ends. -/
def strip? (path front : String) : Option String :=
  String.ofList <$> stripSegments? path.toList front.toList

end Router

/-- Paths and the steps they lead to, in the order they are tried. -/
structure Router (k : Kind) where
  /-- The routes. -/
  routes : Journal (String × Step k)

namespace Router

variable {k : Kind}

/-- No routes: nothing matches. -/
def empty : Router k := ⟨.empty⟩

/-- One more route, tried after the others. -/
def add (r : Router k) (path : String) (step : Step k) : Router k :=
  ⟨r.routes.push (path, step)⟩

/-- The routes of a list, tried in its order. -/
def ofList (routes : List (String × Step k)) : Router k := ⟨.ofList routes⟩

/-- How many routes there are. -/
def size (r : Router k) : Nat := r.routes.size

/-- There are no routes. -/
def isEmpty (r : Router k) : Bool := r.routes.isEmpty

/-- The first of some routes that matches a path. -/
def firstMatch (routes : List (String × Step k)) (path : String) : RouteMatch (Step k) :=
  match routes.findSome? fun route ↦ (strip? path route.1).map fun rest ↦ (rest, route.2) with
  | some (rest, step) => .hit rest step
  | none => .miss

/-- The first route that matches a path. -/
def dispatch (r : Router k) (path : String) : RouteMatch (Step k) := firstMatch r.routes.toList path

/-- The step that dispatches on the path not consumed yet. -/
def toStep (r : Router k) : Step k := .routePath (firstMatch r.routes.toList)

end Router

end Turnstile
