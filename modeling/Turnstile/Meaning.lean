import Turnstile.Dossier
import Turnstile.Failure
import Turnstile.Io

/-!
# The meaning of a program

What a request program comes to, read off the program itself by recursion: no engine, no worker
and no suspension. A program works on a dossier and on the bodies that the transport delivers, one
for each time the program asks for the body.

What the transport delivers is the bytes in order and how they end; how they were cut into pieces
is forgotten (`Meaning.Delivery.ofEvents`).
-/

namespace Turnstile

namespace Meaning

/-- What stays the same while a program runs. -/
structure Terms where
  /-- The metadata of the request. -/
  metadata : Metadata
  /-- The ceiling on every limit for the body. -/
  maxBodyBytes : Nat

/-- How a delivery ends. -/
inductive Delivery.Close where
  /-- The body is complete. -/
  | complete
  /-- The connection failed. -/
  | failed (e : IoError)
  /-- It does not end. -/
  | never
  deriving DecidableEq, Repr

/-- What the transport delivers for one reading of the body. -/
structure Delivery where
  /-- The bytes, in order. -/
  bytes : Bytes
  /-- How the delivery ends. -/
  close : Delivery.Close
  deriving DecidableEq, Repr

/-- What some events deliver. What comes behind the end is ignored. -/
def Delivery.ofEvents : List IoEvent → Delivery
  | [] => ⟨[], .never⟩
  | .data chunk :: events => ⟨chunk ++ (ofEvents events).bytes, (ofEvents events).close⟩
  | .allRead :: _ => ⟨[], .complete⟩
  | .error e :: _ => ⟨[], .failed e⟩
  | .writable :: events => ofEvents events

/-- What changes while a program runs. -/
structure State where
  /-- The file kept on the request. -/
  dossier : Dossier
  /-- What the transport delivers each time the body is read. -/
  bodies : List Delivery
  /-- The notes left so far. -/
  notes : List String

/-- What a program comes to. -/
inductive Verdict where
  /-- It yields a value to go on with. -/
  | yields (v : Value)
  /-- It is over with a response. -/
  | responds (response : Response)
  /-- It fails. -/
  | fails (failure : Failure)
  /-- It waits for a body that is never delivered. -/
  | waits
  deriving DecidableEq

/-- Go on with the value, where the verdict is one. -/
def andThen : Verdict × State → (Value → State → Verdict × State) → Verdict × State
  | (.yields v, s), next => next v s
  | (.responds response, s), _ => (.responds response, s)
  | (.fails failure, s), _ => (.fails failure, s)
  | (.waits, s), _ => (.waits, s)

theorem andThen_assoc (o : Verdict × State) (next₁ next₂ : Value → State → Verdict × State) :
    andThen (andThen o next₁) next₂ = andThen o fun v s ↦ andThen (next₁ v s) next₂ := by
  obtain ⟨verdict, s⟩ := o
  cases verdict <;> rfl

/-- What reading a body with at most `limit` bytes comes to. -/
def ofBody (limit : Nat) (d : Delivery) : Verdict :=
  if limit < d.bytes.length then .responds (.tooLarge limit)
  else
    match d.close with
    | .complete => .yields (.bytes d.bytes)
    | .failed e => .fails (.read e)
    | .never => .waits

/-- Read the next body that is delivered. The limit is at most that of the terms. -/
def readBody (t : Terms) (limit : Nat) (s : State) : Verdict × State :=
  match s.bodies with
  | [] => (.waits, s)
  | body :: bodies => (ofBody (min limit t.maxBodyBytes) body, { s with bodies })

/-- Start a cleaner early. -/
def invokeCleaner (handle : Nat) (s : State) : Verdict × State :=
  match s.dossier.cleaners.invoke handle with
  | (.ok _, c) => (.yields .unit, { s with dossier := { s.dossier with cleaners := c } })
  | (.error f, c) => (.fails (.program f), { s with dossier := { s.dossier with cleaners := c } })

/-- An action of the program's own code. -/
def ofAction (s : State) : Action → Verdict × State
  | .note text => (.yields .unit, { s with notes := s.notes ++ [text] })
  | .gate => (.yields .unit, s)
  | .look handle => (.yields (.flag (s.dossier.cleaners.isStarted handle)), s)

mutual

/-- The verdict on a program: a bind is its base, then what follows the value of the base. -/
def ofProgram (t : Terms) : Program → State → Verdict × State
  | .pure v, s => (.yields v, s)
  | .raise f, s => (.fails (.program f), s)
  | .suspend op, s => ofOperation t op s
  | .flatMap base next, s => andThen (ofProgram t base s) fun v s ↦ ofProgram t (next v) s

/-- The verdict on an operation. -/
def ofOperation (t : Terms) : Operation → State → Verdict × State
  | .abort response, s => (.responds response, s)
  | .addHeaders headers, s =>
    (.yields .unit,
      { s with dossier := { s.dossier with headers := s.dossier.headers ++ headers } })
  | .addCookie cookie, s =>
    (.yields .unit,
      { s with dossier := { s.dossier with cookies := s.dossier.cookies.push cookie } })
  | .addCleaner action, s =>
    (.yields (.handle s.dossier.cleaners.size),
      { s with dossier := { s.dossier with cleaners := s.dossier.cleaners.register action } })
  | .invokeCleaner handle, s => invokeCleaner handle s
  | .getMethod, s => (.yields (.text t.metadata.method), s)
  | .getHeaderNames, s => (.yields (.texts t.metadata.headerNames), s)
  | .getHeader name, s => (.yields (.texts (t.metadata.header name)), s)
  | .getCookies name, s => (.yields (.texts (t.metadata.cookie name)), s)
  | .getParameterNames, s => (.yields (.texts t.metadata.parameterNames), s)
  | .getParameter name, s => (.yields (.texts (t.metadata.parameter name)), s)
  | .readBody limit, s => readBody t limit s
  | .getQos, s => (.yields (.qos s.dossier.qos), s)
  | .setQos qos, s => (.yields .unit, { s with dossier := { s.dossier with qos } })
  | .routePath matcher, s => ofMatch t (matcher s.dossier.path) s
  | .continueWith path p, s => ofProgram t p { s with dossier := { s.dossier with path } }
  | .act action, s => ofAction s action

/-- The verdict on what a path matcher says. -/
def ofMatch (t : Terms) : RouteMatch Program → State → Verdict × State
  | .miss, s => (.responds .notFound, s)
  | .hit rest p, s => ofProgram t p { s with dossier := { s.dossier with path := rest } }
  | .fault f, s => (.fails (.program f), s)

end

/-- The verdict on the value of a whole program: one that is no response is a failure. -/
def conclude : Value → State → Verdict × State
  | .response response, s => (.responds response, s)
  | _, s => (.fails .noResponse, s)

/-- The verdict on a whole program. -/
def ofWhole (t : Terms) (p : Program) (s : State) : Verdict × State :=
  andThen (ofProgram t p s) conclude

end Meaning

end Turnstile
