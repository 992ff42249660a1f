import Turnstile.Operation

/-!
# Dossiers

What a request program sees and changes besides its values: the class of its request, the path
not consumed yet, the headers and cookies it added to the response to come, and its cleaners. Most
operations are answered from the dossier and the metadata alone; `Dossier.answer` says how, and
which operations need the worker to do something else.
-/

namespace Turnstile

/-- What a program sees and changes besides its values. -/
structure Dossier where
  /-- The class of the request. -/
  qos : Qos
  /-- The path not consumed yet. -/
  path : String
  /-- The headers added to the response to come. -/
  headers : Journal (String × String)
  /-- The cookies added to the response to come. -/
  cookies : Journal Cookie
  /-- The cleaners. -/
  cleaners : Cleanup String

/-- What an operation leads to. -/
inductive Reaction where
  /-- The program goes on with a value. -/
  | resume (v : Value) (d : Dossier)
  /-- The program `p` comes first and yields the value to go on with. -/
  | enter (p : Program) (d : Dossier)
  /-- The program is over and this response is sent. -/
  | respond (response : Response)
  /-- The request body is read, with at most `limit` bytes. -/
  | readBody (limit : Nat)
  /-- Code that the operation ran broke off. -/
  | fault (f : Fault) (d : Dossier)
  /-- The program's own code acts. -/
  | act (action : Action)

namespace Dossier

/-- The dossier of a request of class `qos` for `path`. -/
def new (qos : Qos) (path : String) : Dossier := ⟨qos, path, .empty, .empty, .empty⟩

/-- What an operation leads to, for a request with metadata `m`. -/
def answer (m : Metadata) (d : Dossier) : Operation → Reaction
  | .abort response => .respond response
  | .addHeaders headers => .resume .unit { d with headers := d.headers ++ headers }
  | .addCookie cookie => .resume .unit { d with cookies := d.cookies.push cookie }
  | .addCleaner action =>
    .resume (.handle d.cleaners.size) { d with cleaners := d.cleaners.register action }
  | .invokeCleaner handle =>
    match d.cleaners.invoke handle with
    | (.ok _, c) => .resume .unit { d with cleaners := c }
    | (.error f, c) => .fault f { d with cleaners := c }
  | .getMethod => .resume (.text m.method) d
  | .getHeaderNames => .resume (.texts m.headerNames) d
  | .getHeader name => .resume (.texts (m.header name)) d
  | .getCookies name => .resume (.texts (m.cookie name)) d
  | .getParameterNames => .resume (.texts m.parameterNames) d
  | .getParameter name => .resume (.texts (m.parameter name)) d
  | .readBody limit => .readBody limit
  | .getQos => .resume (.qos d.qos) d
  | .setQos qos => .resume .unit { d with qos }
  | .routePath matcher =>
    match matcher d.path with
    | .miss => .respond .notFound
    | .hit rest p => .enter p { d with path := rest }
    | .fault f => .fault f d
  | .continueWith path p => .enter p { d with path }
  | .act action => .act action

/-- The response as it is sent: its own headers, the headers added, and a header for each cookie.
What was added is used up. -/
def assemble (d : Dossier) (response : Response) : Response × Dossier :=
  let cookieHeaders := d.cookies.toList.map fun c ↦ ("set-cookie", c.headerValue)
  ({ response with headers := response.headers ++ d.headers.toList ++ cookieHeaders },
    { d with headers := .empty, cookies := .empty })

end Dossier

end Turnstile
