import Turnstile.Cleanup
import Turnstile.Cookie
import Turnstile.Routine.Basic
import Turnstile.Value

/-!
# Operations

What a request program asks the server for. A program is a routine that asks operations, and two
of them carry programs themselves: dispatch on the path, and going on under another path. Beside
these stand the actions of the program's own code, which ask nothing of the server.
-/

namespace Turnstile

/-- What a path matcher says: whether it matches, and how to go on. -/
inductive RouteMatch (P : Type) where
  /-- The path is not matched. -/
  | miss
  /-- The path is matched up to `rest`, and `next` takes over. -/
  | hit (rest : String) (next : P)
  /-- The matcher broke off. -/
  | fault (fault : Fault)

/-- What the code of a program does on its own. -/
inductive Action where
  /-- Leave a note. -/
  | note (text : String)
  /-- Hold the worker until someone opens the gate. -/
  | gate
  /-- Look whether a cleaner has been started. -/
  | look (handle : Nat)
  deriving DecidableEq, Repr

/-- What a program stops for. -/
inductive Operation where
  /-- Stop and send this response. -/
  | abort (response : Response)
  /-- Add headers to the response to come. -/
  | addHeaders (headers : Pairs)
  /-- Add a cookie to the response to come. -/
  | addCookie (cookie : Cookie)
  /-- Register a cleaner. -/
  | addCleaner (action : Cleaner String)
  /-- Start a cleaner early. -/
  | invokeCleaner (handle : Nat)
  /-- The request method. -/
  | getMethod
  /-- The names of the request headers. -/
  | getHeaderNames
  /-- The values of a request header. -/
  | getHeader (name : String)
  /-- The values of a request cookie. -/
  | getCookies (name : String)
  /-- The names of the query parameters. -/
  | getParameterNames
  /-- The values of a query parameter. -/
  | getParameter (name : String)
  /-- The whole request body, of at most `limit` bytes. -/
  | readBody (limit : Nat)
  /-- The service class of the request. -/
  | getQos
  /-- Change the service class of the request. -/
  | setQos (qos : Qos)
  /-- Go on with the program that the matcher gives for the path not consumed yet. -/
  | routePath (matcher : String → RouteMatch (Routine Operation Value))
  /-- Go on with a program under another path. -/
  | continueWith (path : String) (next : Routine Operation Value)
  /-- An action of the program's own code. -/
  | act (action : Action)

/-- A request program. -/
abbrev Program := Routine Operation Value

namespace Operation

instance : Inhabited Operation := ⟨.getMethod⟩

/-- The name of an operation. -/
def name : Operation → String
  | .abort _ => "abort"
  | .addHeaders _ => "add_headers"
  | .addCookie _ => "add_cookie"
  | .addCleaner _ => "add_cleaner"
  | .invokeCleaner _ => "invoke_cleaner"
  | .getMethod => "get_method"
  | .getHeaderNames => "get_header_names"
  | .getHeader _ => "get_header"
  | .getCookies _ => "get_cookies"
  | .getParameterNames => "get_parameter_names"
  | .getParameter _ => "get_parameter"
  | .readBody _ => "read_body"
  | .getQos => "get_qos"
  | .setQos _ => "set_qos"
  | .routePath _ => "route_path"
  | .continueWith _ _ => "continue"
  | .act _ => "act"

/-- An operation as text; `isStarted` tells which cleaners have been started. -/
def inspect (isStarted : Nat → Bool) : Operation → String
  | .abort response => Text.inspectTuple "Abort" [toString response.status]
  | .addHeaders headers => Text.inspectTuple "AddHeaders" [Text.inspectPairs headers]
  | .addCookie cookie => Text.inspectTuple "AddCookie" [cookie.inspect]
  | .invokeCleaner handle =>
    Text.inspectTuple "InvokeCleaner" [Cleanup.inspectHandle (isStarted handle)]
  | .getHeader name => Text.inspectTuple "GetHeader" [Text.quote name]
  | .getCookies name => Text.inspectTuple "GetCookies" [Text.quote name]
  | .getParameter name => Text.inspectTuple "GetParameter" [Text.quote name]
  | .readBody limit => Text.inspectTuple "ReadBody" [toString limit]
  | .setQos qos => Text.inspectTuple "SetQos" [qos.inspect]
  | .continueWith path _ => Text.inspectTuple "Continue" [Text.quote path]
  | op => op.name

/-- The kind of value that an operation is answered with. An abort is never answered, and a
dispatch is answered with whatever the program it leads to yields. -/
def answer : Operation → Kind
  | .addHeaders _ | .addCookie _ | .invokeCleaner _ | .setQos _ => .unit
  | .addCleaner _ => .handle
  | .getMethod => .text
  | .getHeaderNames | .getHeader _ | .getCookies _ | .getParameterNames | .getParameter _ => .texts
  | .readBody _ => .bytes
  | .getQos => .qos
  | .act (.note _) | .act .gate => .unit
  | .act (.look _) => .flag
  | .abort _ | .routePath _ | .continueWith _ _ => .any

end Operation

end Turnstile
