import Turnstile.Operation
import Turnstile.Routine.Run

/-!
# Rehearsals

Running a request program by hand: the program runs until it stops for an operation, and the next
prepared cue says how to go on. Actions of the program's own code are carried out as they come.
-/

namespace Turnstile

namespace Rehearsal

/-- How to answer an operation. -/
inductive Cue where
  /-- With a value. -/
  | value (v : Value)
  /-- With the handle of the cleaner that is to be registered, or of an idle one. -/
  | handle
  /-- By starting the cleaner that is to be invoked. -/
  | invoke
  /-- By going on with the program under a path. -/
  | path (path : String)

/-- Something that happened. -/
inductive Beat where
  /-- The program stopped for an operation, shown as text. -/
  | asked (name text : String)
  /-- A remark on how the operation was answered. -/
  | remark (text : String)
  /-- The program finished. -/
  | finished (text : String)
  /-- The program broke off. -/
  | faulted (fault : Fault)
  /-- No route matched. -/
  | noRoute

/-- A note that was left on the way. -/
inductive Note where
  /-- By the program. -/
  | program (text : String)
  /-- By a cleaner. -/
  | cleaner (text : String)

/-- How far a rehearsal has come. -/
structure Stage where
  /-- The cleaners registered so far. -/
  cleaners : Cleanup String
  /-- What happened so far. -/
  beats : Journal Beat
  /-- The notes left so far. -/
  notes : Journal Note

namespace Stage

/-- The beginning. -/
def empty : Stage := ⟨.empty, .empty, .empty⟩

/-- Something more happened. -/
def beat (s : Stage) (b : Beat) : Stage := { s with beats := s.beats.push b }

/-- A remark, unless it is empty. -/
def remark (s : Stage) (text : String) : Stage := if text.isEmpty then s else s.beat (.remark text)

/-- Take over the cleaners with what they did since. -/
def withCleaners (s : Stage) (c : Cleanup String) : Stage :=
  let notes : List Note := (c.history.since s.cleaners.history).filterMap fun
    | .note text => some (.cleaner text)
    | _ => none
  { s with cleaners := c, notes := s.notes ++ notes }

/-- Carry out an action of the program's own code and give the value it yields. -/
def act (s : Stage) : Action → Value × Stage
  | .note text => (.unit, { s with notes := s.notes.push (.program text) })
  | .gate => (.unit, s)
  | .look handle => (.flag (s.cleaners.isStarted handle), s)

end Stage

/-- Go on as a cue says from an operation and its continuation, unless that ends the rehearsal. -/
def answer (s : Stage) (op : Operation) (next : Value → Program) : Cue → Stage × Option Program
  | .value v => (s, some (.flatMap (.pure v) next))
  | .handle =>
    let id := s.cleaners.size
    let action := match op with
      | .addCleaner action => action
      | _ => .done
    ({ s with cleaners := s.cleaners.register action }, some (.flatMap (.pure (.handle id)) next))
  | .invoke =>
    match op with
    | .invokeCleaner handle =>
      match s.cleaners.invoke handle with
      | (.ok started, c) =>
        ((s.withCleaners c).remark (if started then "true" else "false"),
          some (.flatMap (.pure .unit) next))
      | (.error fault, c) => ((s.withCleaners c).beat (.faulted fault), none)
    | _ => (s, some (.flatMap (.pure .unit) next))
  | .path path =>
    match op with
    | .routePath matcher =>
      match matcher path with
      | .miss => (s.beat .noRoute, none)
      | .hit rest program => (s.remark rest, some (.flatMap program next))
      | .fault fault => (s.beat (.faulted fault), none)
    | .continueWith rest program => (s.remark rest, some (.flatMap program next))
    | _ => (s, some (.flatMap (.pure (.text path)) next))

/-- A value as text. -/
def textOf (s : Stage) : Value → String
  | .handle id => Value.handleText (s.cleaners.isStarted id)
  | v => v.plainText

/-- Run a program, with the actions of its own code, until it stops for anything else or ends. -/
def advance (s : Stage) (r : Program) : Stage × Option (Operation × (Value → Program)) :=
  match _h : r.reduce with
  | .inr r' => advance s r'
  | .inl (.suspended (.act action) next) =>
    let (v, s) := s.act action
    advance s (next v)
  | .inl (.suspended op next) =>
    (s.beat (.asked op.name (op.inspect s.cleaners.isStarted)), some (op, next))
  | .inl (.finished v) => (s.beat (.finished (textOf s v)), none)
  | .inl (.faulted fault) => (s.beat (.faulted fault), none)
termination_by r
decreasing_by
  · exact .turn _h
  · exact .answer _h v

/-- Rehearse a program with cues. The rehearsal ends with the program, or where a cue is
missing. -/
def playFrom (s : Stage) (r : Program) : List Cue → Stage
  | [] => (advance s r).1
  | cue :: cues =>
    match advance s r with
    | (s, none) => s
    | (s, some (op, next)) =>
      match answer s op next cue with
      | (s, some r) => playFrom s r cues
      | (s, none) => s

/-- A whole rehearsal. -/
def play (r : Program) (cues : List Cue) : Stage := playFrom .empty r cues

end Rehearsal

end Turnstile
