import Turnstile.Environment
import Turnstile.Text.Alphanumeric
import Turnstile.Text.Blank

/-!
# Environment files

A file of assignments `NAME=value`, one to a line unless quotes keep a line open. Values may be
quoted, may escape characters by a backslash, and may refer to variables. Reading stops at the
first line that is no assignment; what stood before it counts.
-/

namespace Turnstile

namespace EnvFile

/-! ## Lines -/

/-- What is open at some place of a line. -/
inductive Open where
  /-- Nothing. -/
  | nothing
  /-- A blank. -/
  | blank
  /-- A comment. -/
  | comment
  /-- An escape. -/
  | escape
  /-- Double quotes. -/
  | weak
  /-- An escape in double quotes. -/
  | weakEscape
  /-- Single quotes. -/
  | strong
  /-- An escape in single quotes. -/
  | strongEscape
  deriving DecidableEq, Repr

/-- What a character that stands outside quotes opens. -/
def openedBy (c : Char) : Open :=
  if c = '\\' then .escape else if c = '"' then .weak else if c = '\'' then .strong else .nothing

/-- What is open after a character. A comment follows a blank. -/
def openAfter (o : Open) (c : Char) : Open :=
  match o with
  | .nothing => if Text.isBlank c && c ≠ '\n' && c ≠ '\r' then .blank else openedBy c
  | .blank => if c = '#' then .comment else openedBy c
  | .comment => .comment
  | .escape => .nothing
  | .weak => if c = '\\' then .weakEscape else if c = '"' then .nothing else .weak
  | .weakEscape => .weak
  | .strong => if c = '\\' then .strongEscape else if c = '\'' then .nothing else .strong
  | .strongEscape => .strong

/-- Read the rest of a line up to a comment: what is open then, and the characters read, which
are put before those of the lines that it continues, newest first. -/
def scanLine (o : Open) (before : List Char) : List Char → Open × List Char
  | [] => (o, before)
  | c :: rest =>
    match openAfter o c with
    | .comment => (.comment, before)
    | o => scanLine o (c :: before) rest

/-- The text cut behind each end of line; `before` holds what the line has so far, newest first. -/
def cutLines (before : List Char) : List Char → List (List Char)
  | [] => if before.isEmpty then [] else [before.reverse]
  | c :: rest =>
    if c = '\n' then (c :: before).reverse :: cutLines [] rest else cutLines (c :: before) rest

/-- A line without the characters that end it, all given newest first. -/
def dropLineEnd : List Char → List Char
  | '\n' :: '\r' :: rest => rest
  | '\n' :: rest => rest
  | cs => cs

/-- Nothing but a comment stands on the line. -/
def isCommentLine (line : List Char) : Bool := (line.dropWhile Text.isBlank).head? = some '#'

/-- Join lines that something keeps open; `before` holds what is still open, newest first. `none`
stands for a line that is still open at the end of the file. -/
def joinLines : List Char → Open → List (List Char) → List (Option (List Char))
  | _, o, [] => if o = .nothing then [] else [none]
  | before, o, line :: lines =>
    if before = [] ∧ isCommentLine line then some [] :: joinLines [] .nothing lines
    else
      match scanLine o before line with
      | (.nothing, cs) => some (dropLineEnd cs).reverse :: joinLines [] .nothing lines
      | (.comment, cs) => some cs.reverse :: joinLines [] .nothing lines
      | (o, cs) => joinLines cs o lines

/-- The lines of a file. A byte order mark in front is passed over. -/
def lines (text : String) : List (Option (List Char)) :=
  let cs := match text.toList with
    | '\ufeff' :: rest => rest
    | cs => cs
  joinLines [] .nothing (cutLines [] cs)

/-! ## Values -/

/-- Where in a value the reader is. -/
inductive Place where
  /-- Outside single quotes. -/
  | plain
  /-- In single quotes. -/
  | strong
  /-- Behind a backslash. -/
  | escape
  /-- In the name of a variable, given back to front. -/
  | name (before : List Char)
  /-- In the name of a variable in braces, given back to front. -/
  | braced (before : List Char)
  /-- Behind the value, where only blanks and a comment may follow. -/
  | behind

/-- The reader of a value. -/
structure Reader where
  /-- Where it is. -/
  place : Place
  /-- It is in double quotes. -/
  weak : Bool
  /-- What the value has so far. -/
  value : String

namespace Reader

/-- One more character. -/
def push (r : Reader) (c : Char) : Reader := { r with place := .plain, value := r.value.push c }

/-- The value of a variable. -/
def insert (r : Reader) (lookup : String → String) (before : List Char) : Reader :=
  { r with place := .plain, value := r.value ++ lookup (String.ofList before.reverse) }

/-- The character that an escape stands for. -/
def unescape? (c : Char) : Option Char :=
  if c = 'n' then some '\n' else if c ∈ ['\\', '\'', '"', '$', ' '] then some c else none

/-- Read a character outside single quotes. -/
def readOpen (r : Reader) (c : Char) : Reader :=
  if c = '$' then { r with place := .name [] }
  else if c = '\\' then { r with place := .escape }
  else if r.weak then if c = '"' then { r with weak := false } else r.push c
  else if c = '\'' then { r with place := .strong }
  else if c = '"' then { r with weak := true }
  else if c = ' ' ∨ c = '\t' then { r with place := .behind }
  else r.push c

/-- Read a character of the name of a variable. -/
def readName (r : Reader) (lookup : String → String) (before : List Char) (c : Char) : Reader :=
  if Text.isAlphanumeric c then { r with place := .name (c :: before) }
  else if c = '{' ∧ before = [] then { r with place := .braced [] }
  else if c = '$' then { r.insert lookup before with place := .name [] }
  else (r.insert lookup before).push c

/-- The value at the end of the text, if nothing is left open. -/
def finish? (r : Reader) (lookup : String → String) : Option String :=
  if r.weak then none
  else
    match r.place with
    | .strong | .braced _ => none
    | .name before => some (r.insert lookup before).value
    | .plain | .escape | .behind => some r.value

/-- Read the rest of a value. -/
def read? (lookup : String → String) : Reader → List Char → Option String
  | r, [] => r.finish? lookup
  | r, c :: rest =>
    match r.place with
    | .behind =>
      if c = ' ' ∨ c = '\t' then read? lookup r rest
      else if c = '#' then r.finish? lookup
      else none
    | .escape =>
      match unescape? c with
      | some c => read? lookup (r.push c) rest
      | none => none
    | .strong =>
      if c = '\'' then read? lookup { r with place := .plain } rest
      else read? lookup { r with value := r.value.push c } rest
    | .name before => read? lookup (r.readName lookup before c) rest
    | .braced before =>
      if c = '}' then read? lookup (r.insert lookup before) rest
      else read? lookup { r with place := .braced (c :: before) } rest
    | .plain => read? lookup (r.readOpen c) rest

end Reader

/-- The value of a text in which variables have the values of `lookup`. -/
def parseValue? (lookup : String → String) (cs : List Char) : Option String :=
  Reader.read? lookup ⟨.plain, false, ""⟩ cs

/-! ## Assignments -/

/-- What a line is. -/
inductive Line where
  /-- It holds nothing. -/
  | empty
  /-- An assignment of no value. -/
  | cleared (name : String)
  /-- An assignment. -/
  | assigned (name value : String)
  /-- No assignment. -/
  | broken

/-- The name in front and what follows it. -/
def splitName? (cs : List Char) : Option (List Char × List Char) :=
  match cs with
  | c :: _ =>
    if c.isAlpha ∨ c = '_' then
      some (cs.span fun c ↦ c.isAlphanum || c == '_' || c == '.')
    else none
  | [] => none

/-- What follows an equals sign. -/
def dropEqual? (cs : List Char) : Option (List Char) :=
  match cs with
  | '=' :: rest => some rest
  | _ => none

/-- The name that is assigned to and what follows the equals sign. The word `export` may stand
before the name. -/
def splitAssignment? (cs : List Char) : Option (List Char × List Char) := do
  let (name, rest) ← splitName? cs
  let rest := rest.dropWhile Text.isBlank
  match dropEqual? rest with
  | some value => return (name, value)
  | none =>
    if name = "export".toList then
      let (name, rest) ← splitName? rest
      let value ← dropEqual? (rest.dropWhile Text.isBlank)
      return (name, value)
    else none

/-- The value part of a line is missing. -/
def isBare (cs : List Char) : Bool := cs.head? = none || cs.head? = some '#'

/-- What a line is, where variables have the values of `lookup`. -/
def parseLine (lookup : String → String) (line : List Char) : Line :=
  let line := (Text.dropBlankEnd line).dropWhile Text.isBlank
  if isBare line then .empty
  else
    match splitAssignment? line with
    | none => .broken
    | some (name, rest) =>
      let rest := rest.dropWhile Text.isBlank
      if isBare rest then .cleared (String.ofList name)
      else
        match parseValue? lookup rest with
        | some value => .assigned (String.ofList name) value
        | none => .broken

/-! ## Files -/

/-- The value of a variable: that of the environment if it is a text, else the last one the file
gave it, else nothing. -/
def lookup (env : Environment) (given : Std.TreeMap String String) (name : String) : String :=
  match env.text? name with
  | some value => value
  | none => (given[name]?).getD ""

/-- Read lines onto an environment up to the first broken one. `given` holds the values that the
file gave so far. -/
def loadLines : List (Option (List Char)) → Std.TreeMap String String → Environment →
    Except Fault Environment
  | [], _, env => .ok env
  | none :: _, _, env => .ok env
  | some line :: rest, given, env =>
    match parseLine (lookup env given) line with
    | .empty => loadLines rest given env
    | .cleared name => do loadLines rest (given.insert name "") (← env.assignMissing name "")
    | .assigned name value => do
      loadLines rest (given.insert name value) (← env.assignMissing name value)
    | .broken => .ok env

/-- The environment after a file. A variable that has a text keeps it. -/
def load (text : String) (env : Environment) : Except Fault Environment :=
  loadLines (lines text) ∅ env

end EnvFile

end Turnstile
