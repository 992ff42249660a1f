import Turnstile.Operation

/-!
# Typed programs

A step is a program together with the kind of value it yields. The constructors below are the
ways to build steps; each continuation expects the kind that the step before it yields, and
breaks off if it is resumed with anything else.
-/

namespace Turnstile

/-- A program that yields a value of kind `k`. -/
structure Step (k : Kind) where
  /-- The program. -/
  program : Program

namespace Step

variable {j k : Kind}

/-- Go on with the value of kind `k` that `v` should be. -/
def expect (k : Kind) (next : k.Carrier → Program) (v : Value) : Program :=
  match k.project? v with
  | some x => next x
  | none => .raise (.wrongKind k)

/-- Yield a value. -/
def pure (x : k.Carrier) : Step k := ⟨.pure (k.inject x)⟩

/-- Go on with what `next` makes of the value. -/
def flatMap (s : Step j) (next : j.Carrier → Step k) : Step k :=
  ⟨s.program.flatMap (expect j fun x ↦ (next x).program)⟩

/-- Change the value. -/
def map (f : j.Carrier → k.Carrier) (s : Step j) : Step k := s.flatMap fun x ↦ pure (f x)

/-- Go on with another step, whatever the value. -/
def andThen (s : Step j) (next : Step k) : Step k := s.flatMap fun _ ↦ next

/-- Break off. -/
def raise (fault : Fault) : Step k := ⟨.raise fault⟩

/-- Forget the kind. -/
def erase (s : Step k) : Step .any := ⟨s.program⟩

/-- A step as text, with the name of its kind given. -/
def inspect (kindName : String) (s : Step k) : String :=
  Text.inspectRecord "Step" [("output", Text.quote kindName), ("routine", Text.quote s.program.tag)]

/-! ## Operations as steps -/

/-- Stop for an operation. -/
def suspend (k : Kind) (op : Operation) : Step k := ⟨.suspend op⟩

/-- Stop the program and send `response`. -/
def abort (response : Response) : Step k := suspend k (.abort response)

/-- Add headers to the response to come. -/
def addHeaders (headers : Pairs) : Step .unit := suspend .unit (.addHeaders headers)

/-- Add a cookie to the response to come. -/
def addCookie (cookie : Cookie) : Step .unit := suspend .unit (.addCookie cookie)

/-- Register a cleaner. -/
def addCleaner (action : Cleaner String) : Step .handle := suspend .handle (.addCleaner action)

/-- Start a cleaner early. -/
def invokeCleaner (handle : Nat) : Step .unit := suspend .unit (.invokeCleaner handle)

/-- The request method. -/
def getMethod : Step .text := suspend .text .getMethod

/-- The names of the request headers. -/
def getHeaderNames : Step .texts := suspend .texts .getHeaderNames

/-- The values of a request header. -/
def getHeader (name : String) : Step .texts := suspend .texts (.getHeader name)

/-- The values of a request cookie. -/
def getCookies (name : String) : Step .texts := suspend .texts (.getCookies name)

/-- The names of the query parameters. -/
def getParameterNames : Step .texts := suspend .texts .getParameterNames

/-- The values of a query parameter. -/
def getParameter (name : String) : Step .texts := suspend .texts (.getParameter name)

/-- The whole request body, of at most `limit` bytes. -/
def readBody (limit : Nat) : Step .bytes := suspend .bytes (.readBody limit)

/-- The service class of the request. -/
def getQos : Step .qos := suspend .qos .getQos

/-- Change the service class of the request. -/
def setQos (qos : Qos) : Step .unit := suspend .unit (.setQos qos)

/-- Go on with the step that the matcher gives for the path not consumed yet. -/
def routePath (matcher : String → RouteMatch (Step k)) : Step k :=
  suspend k <| .routePath fun path ↦
    match matcher path with
    | .miss => .miss
    | .hit rest next => .hit rest next.program
    | .fault fault => .fault fault

/-- Go on with a step under another path. -/
def continueWith (path : String) (next : Step k) : Step k :=
  suspend k (.continueWith path next.program)

/-- Leave a note. -/
def note (text : String) : Step .unit := suspend .unit (.act (.note text))

/-- Hold the worker until someone opens the gate. -/
def gate : Step .unit := suspend .unit (.act .gate)

/-- Look whether a cleaner has been started. -/
def look (handle : Nat) : Step .flag := suspend .flag (.act (.look handle))

end Step

end Turnstile
