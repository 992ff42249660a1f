import Turnstile.Json.Token

/-!
# Reading JSON

A value is built from its tokens by a machine with a stack: each token takes the machine from one
state to the next, and the stack holds the lists and objects that are still open. The depth of a
text is therefore not limited.
-/

namespace Turnstile

namespace Json

/-- A list or an object that waits for a value; what it has already stands newest first. -/
inductive Frame where
  /-- A list that waits for an item. -/
  | item (before : List Json)
  /-- An object that waits for the value of `name`. -/
  | member (before : List (Json.Text × Json)) (name : Json.Text)

/-- Where the reader is. -/
inductive State where
  /-- A value must follow. -/
  | value (frames : List Frame)
  /-- A list has been opened. -/
  | firstItem (frames : List Frame)
  /-- An object has been opened. -/
  | firstName (frames : List Frame)
  /-- Another member must follow. -/
  | nextName (before : List (Json.Text × Json)) (frames : List Frame)
  /-- The colon after a name must follow. -/
  | colon (before : List (Json.Text × Json)) (name : Json.Text) (frames : List Frame)
  /-- A value is complete. -/
  | complete (value : Json) (frames : List Frame)

/-- What a token does where a value must follow. -/
def stepValue (frames : List Frame) : Token → Option State
  | .leaf value => some (.complete value frames)
  | .text s => some (.complete (.text s) frames)
  | .openArray => some (.firstItem frames)
  | .openObject => some (.firstName frames)
  | _ => none

/-- What a token does. -/
def step : State → Token → Option State
  | .value frames, token => stepValue frames token
  | .firstItem frames, .closeArray => some (.complete (.array []) frames)
  | .firstItem frames, token => stepValue (.item [] :: frames) token
  | .firstName frames, .closeObject => some (.complete (.object []) frames)
  | .firstName frames, .text name => some (.colon [] name frames)
  | .nextName before frames, .text name => some (.colon before name frames)
  | .colon before name frames, .colon => some (.value (.member before name :: frames))
  | .complete value (.item before :: frames), .comma =>
    some (.value (.item (value :: before) :: frames))
  | .complete value (.item before :: frames), .closeArray =>
    some (.complete (.array (value :: before).reverse) frames)
  | .complete value (.member before name :: frames), .comma =>
    some (.nextName ((name, value) :: before) frames)
  | .complete value (.member before name :: frames), .closeObject =>
    some (.complete (.object ((name, value) :: before).reverse) frames)
  | _, _ => none

/-- The value that the reader has arrived at, if nothing is open. -/
def State.result? : State → Option Json
  | .complete result [] => some result
  | _ => none

/-- The value of a sequence of tokens. -/
def ofTokens? (tokens : List Token) : Option Json := do
  let state ← tokens.foldlM step (.value [])
  state.result?

/-- The value of a text. -/
def parse? (s : String) : Option Json := do
  let tokens ← tokens? s.toList
  ofTokens? tokens

end Json

end Turnstile
