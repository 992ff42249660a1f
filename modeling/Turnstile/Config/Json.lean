import Turnstile.Config
import Turnstile.Json.Parse
import Turnstile.Text.Digits

/-!
# Settings from JSON

Settings are read from an object, in which unknown members are passed over and missing ones keep
their defaults, or from a list that gives the settings in the order of their declaration and may
stop early.
-/

namespace Turnstile

/-- A class is given by its name, or by an object whose only member has that name and the empty
value. -/
def Qos.ofJson? : Json → Option Qos
  | .text (.plain name) => Qos.named? name
  | .object [(.plain name, .null)] => Qos.named? name
  | _ => none

namespace Config

/-- A word is given by an integer that fits one. -/
def wordOfJson? : Json → Option Nat
  | .integer n => if 0 ≤ n ∧ n ≤ Text.maxWord then some n.toNat else none
  | _ => none

/-- A text value. -/
def textOfJson? : Json → Option String
  | .text (.plain s) => some s
  | _ => none

/-- A setting by its name in files. -/
inductive Field where
  | workerCount
  | maxInFlight
  | maxBodyBytes
  | writeChunkSize
  | threadStackSize
  | threadNamePrefix
  | defaultQos
  deriving DecidableEq, Repr

namespace Field

/-- Every setting, in the order of declaration. -/
def all : List Field :=
  [.workerCount, .maxInFlight, .maxBodyBytes, .writeChunkSize, .threadStackSize,
    .threadNamePrefix, .defaultQos]

/-- The name of a setting in files. -/
def name : Field → String
  | .workerCount => "worker_count"
  | .maxInFlight => "max_in_flight"
  | .maxBodyBytes => "max_body_bytes"
  | .writeChunkSize => "write_chunk_size"
  | .threadStackSize => "thread_stack_size"
  | .threadNamePrefix => "thread_name_prefix"
  | .defaultQos => "default_qos"

/-- The setting with this name. -/
def named? (s : String) : Option Field := all.find? (·.name = s)

/-- Give a setting the value that a JSON value stands for. -/
def set? (field : Field) (c : Config) (value : Json) : Option Config :=
  match field with
  | .workerCount => wordOfJson? value |>.map fun n ↦ { c with workerCount := n }
  | .maxInFlight => wordOfJson? value |>.map fun n ↦ { c with maxInFlight := n }
  | .maxBodyBytes => wordOfJson? value |>.map fun n ↦ { c with maxBodyBytes := n }
  | .writeChunkSize => wordOfJson? value |>.map fun n ↦ { c with writeChunkSize := n }
  | .threadStackSize => wordOfJson? value |>.map fun n ↦ { c with threadStackSize := n }
  | .threadNamePrefix => textOfJson? value |>.map fun s ↦ { c with threadNamePrefix := s }
  | .defaultQos => Qos.ofJson? value |>.map fun q ↦ { c with defaultQos := q }

end Field

/-- Read the members of an object onto settings. No setting may be given twice, and `seen` holds
those given already. -/
def ofMembers? : List (Json.Text × Json) → List Field → Config → Option Config
  | [], _, c => some c
  | (.broken _, _) :: _, _, _ => none
  | (.plain name, value) :: members, seen, c =>
    match Field.named? name with
    | none => ofMembers? members seen c
    | some field =>
      if field ∈ seen then none
      else match field.set? c value with
        | some c => ofMembers? members (field :: seen) c
        | none => none

/-- Read the items of a list onto the settings in order. -/
def ofItems? : List Field → List Json → Config → Option Config
  | _, [], c => some c
  | [], _ :: _, _ => none
  | field :: fields, item :: items, c =>
    match field.set? c item with
    | some c => ofItems? fields items c
    | none => none

/-- The settings of a JSON value, where missing ones are those of `defaults`. -/
def ofJson? (defaults : Config) : Json → Option Config
  | .object members => ofMembers? members [] defaults
  | .array items => ofItems? Field.all items defaults
  | _ => none

/-- Why a text gives no settings. -/
inductive ParseError where
  /-- The text is no JSON, or its value does not stand for settings. -/
  | unreadable
  /-- The settings break a rule. -/
  | invalid (defect : Defect)
  deriving DecidableEq, Repr

/-- The settings of a JSON text, where missing ones are those of `defaults`. -/
def parse (defaults : Config) (s : String) : Except ParseError Config :=
  match Json.parse? s >>= ofJson? defaults with
  | none => .error .unreadable
  | some c => c.validate.mapError .invalid

end Config

end Turnstile
