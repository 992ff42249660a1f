import Turnstile.Router

/-!
# Scripts

Request programs written down as data: expressions over bound values, and statements that stand
for the operations and for ways to put programs together. `Stmt.toStep` is the step that a
statement stands for. Every expression is evaluated when its statement is reached.
-/

namespace Turnstile

namespace Script

/-- An expression. -/
inductive Expr where
  /-- A value. -/
  | lit (v : Value)
  /-- The value bound to a name. -/
  | var (name : String)
  /-- The texts of the parts, joined. -/
  | cat (parts : List Expr)
  /-- How long the value is. -/
  | len (e : Expr)
  /-- A plain text response with the text of `e`. -/
  | reply (status : Nat) (e : Expr)
  /-- A response whose body is the value of `e` if that is bytes, and its text otherwise. -/
  | replyBytes (status : Nat) (e : Expr)

instance : Inhabited Expr := ⟨.lit .unit⟩

/-- A statement. -/
inductive Stmt where
  /-- Yield a value. -/
  | pure (e : Expr)
  /-- Bind the value of `first` in `next`. -/
  | bind (name : String) (first next : Stmt)
  /-- Bind the value of `first` in an expression. -/
  | map (name : String) (first : Stmt) (e : Expr)
  /-- One after the other; yields what the last one yields. -/
  | seq (stmts : List Stmt)
  /-- The same `count` times, nested to the left; yields what the last one yields. -/
  | times (count : Nat) (body : Stmt)
  /-- Stop and send the response that `e` yields. -/
  | abort (e : Expr)
  | addHeaders (headers : Pairs)
  | addCookie (cookie : Cookie)
  | addCleaner (action : Cleaner String)
  /-- Start the cleaner whose handle `e` yields. -/
  | invokeCleaner (e : Expr)
  | getMethod
  | getHeaderNames
  | getHeader (name : String)
  | getCookies (name : String)
  | getParameterNames
  | getParameter (name : String)
  | readBody (limit : Nat)
  | getQos
  | setQos (qos : Qos)
  /-- Dispatch on the path. -/
  | router (routes : List (String × Stmt))
  /-- The path not consumed yet. -/
  | restOfPath
  /-- Dispatch with a matcher that breaks off. -/
  | routeFault (fault : Fault)
  /-- Go on under another path. -/
  | continueWith (path : String) (next : Stmt)
  /-- Leave the text of `e` as a note. -/
  | note (e : Expr)
  | gate
  | raise (fault : Fault)
  /-- Take the value of `body` for a word, which it never is. -/
  | asWord (body : Stmt)
  /-- Count to `count` with binds nested to the left. -/
  | countLeft (count : Nat)
  /-- Count to `count` with binds nested to the right. -/
  | countRight (count : Nat)
  /-- Ask for the class `count` times, with binds nested to the left, and add up the ranks. -/
  | countQos (count : Nat)

instance : Inhabited Stmt := ⟨.seq []⟩

/-- Values by name, the latest first. -/
abbrev Env := List (String × Value)

/-- The text of a value. Whether a cleaner has been started is looked up when the text is made. -/
def textOf : Value → Step .text
  | .handle id => (Step.look id).map Value.handleText
  | v => .pure v.plainText

/-- How long a value is: the bytes of a text, the items of a list, the bytes of a body. -/
def lengthOf : Value → Nat
  | .text s => s.utf8ByteSize
  | .texts items => items.length
  | .bytes b => b.length
  | _ => 0

/-- Yield a value of any kind. -/
def yield (v : Value) : Step .any := .pure v

/-- Keep the value of a step as one of any kind. -/
def keep {k : Kind} (s : Step k) : Step .any := s.map fun x ↦ k.inject x

mutual

/-- The step that yields the value of an expression. -/
def Expr.toStep (env : Env) : Expr → Step .any
  | .lit v => yield v
  | .var name => yield ((env.lookup name).getD .unit)
  | .cat parts => (textOfParts env parts "").flatMap fun s ↦ yield (.text s)
  | .len e => (e.toStep env).flatMap fun v ↦ yield (.word (.ofNat (lengthOf v)))
  | .reply status e =>
    (e.toStep env).flatMap fun v ↦ (textOf v).flatMap fun s ↦
      yield (.response (.text status s))
  | .replyBytes status e =>
    (e.toStep env).flatMap fun v ↦
      match v with
      | .bytes b => yield (.response ((Response.empty status).withBody b))
      | v => (textOf v).flatMap fun s ↦
        yield (.response ((Response.empty status).withBody (.ofText s)))

/-- The step that yields `front` and the texts of the parts, joined. -/
def textOfParts (env : Env) : List Expr → String → Step .text
  | [], front => .pure front
  | e :: parts, front =>
    (e.toStep env).flatMap fun v ↦ (textOf v).flatMap fun s ↦ textOfParts env parts (front ++ s)

end

/-- Bind the same continuation `count` times, nested to the left. -/
def iterate {k : Kind} (next : k.Carrier → Step k) : Nat → Step k → Step k
  | 0, s => s
  | count + 1, s => iterate next count (s.flatMap next)

/-- Count up from `value` by `count` with binds nested to the right. -/
def countUp : Nat → UInt64 → Step .word
  | 0, value => .pure value
  | count + 1, value => (Step.pure (k := .word) value).flatMap fun n ↦ countUp count (n + 1)

mutual

/-- The step that a statement stands for. -/
def Stmt.toStep (env : Env) : Stmt → Step .any
  | .pure e => e.toStep env
  | .bind name first next => (first.toStep env).flatMap fun v ↦ next.toStep ((name, v) :: env)
  | .map name first e => (first.toStep env).flatMap fun v ↦ e.toStep ((name, v) :: env)
  | .seq stmts => seqToStep env stmts
  | .times 0 _ => yield .unit
  | .times (count + 1) body => iterate (fun _ ↦ body.toStep env) count (body.toStep env)
  | .abort e =>
    (e.toStep env).flatMap fun v ↦
      match v with
      | .response r => .abort r
      | v => (textOf v).flatMap fun s ↦ .abort (.text 200 s)
  | .addHeaders headers => keep (.addHeaders headers)
  | .addCookie cookie => keep (.addCookie cookie)
  | .addCleaner action => keep (.addCleaner action)
  | .invokeCleaner e =>
    (e.toStep env).flatMap fun v ↦
      match v with
      | .handle id => keep (.invokeCleaner id)
      | _ => .raise (.wrongKind .handle)
  | .getMethod => keep .getMethod
  | .getHeaderNames => keep .getHeaderNames
  | .getHeader name => keep (.getHeader name)
  | .getCookies name => keep (.getCookies name)
  | .getParameterNames => keep .getParameterNames
  | .getParameter name => keep (.getParameter name)
  | .readBody limit => keep (.readBody limit)
  | .getQos => keep .getQos
  | .setQos qos => keep (.setQos qos)
  | .router routes => (Router.ofList (routesToSteps env routes)).toStep
  | .restOfPath => keep (.routePath fun path ↦ .hit path (.pure (k := .text) path))
  | .routeFault fault => .routePath fun _ ↦ .fault fault
  | .continueWith path next => .continueWith path (next.toStep env)
  | .note e =>
    (e.toStep env).flatMap fun v ↦ (textOf v).flatMap fun s ↦ keep (.note s)
  | .gate => keep .gate
  | .raise fault => .raise fault
  | .asWord body => (body.toStep env).flatMap fun _ ↦ .raise (.wrongKind .word)
  | .countLeft count =>
    keep (iterate (k := .word) (fun n ↦ .pure (k := .word) (n + 1)) count (.pure (k := .word) 0))
  | .countRight count => keep (countUp count 0)
  | .countQos count =>
    keep <| iterate (k := .word)
      (fun n ↦ Step.getQos.flatMap fun q ↦ .pure (k := .word) (n + .ofNat q.rank)) count
      (.pure (k := .word) 0)

/-- The statements one after the other. -/
def seqToStep (env : Env) : List Stmt → Step .any
  | [] => yield .unit
  | [last] => last.toStep env
  | stmt :: stmts => (stmt.toStep env).flatMap fun _ ↦ seqToStep env stmts

/-- The steps that routes lead to. -/
def routesToSteps (env : Env) : List (String × Stmt) → List (String × Step .any)
  | [] => []
  | (path, stmt) :: routes => (path, stmt.toStep env) :: routesToSteps env routes

end

end Script

end Turnstile
