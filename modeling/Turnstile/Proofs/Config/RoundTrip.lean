import Turnstile.Config.Json
import Turnstile.Proofs.Json.RoundTrip

/-!
# Settings survive JSON

Settings that are written as JSON and read again are the same, whatever the defaults are: every
setting is among the members that are written, under the name that it is read by, and with a value
that stands for it. A text is not changed by its escapes, and an integer is read up to the largest
word. So the check that follows the reading says of them what it says of the settings themselves.
-/

namespace Turnstile

namespace Config

variable {c d : Config}

/-- Every number fits a word. -/
structure Fits (c : Config) : Prop where
  workerCount : c.workerCount ≤ Text.maxWord
  maxInFlight : c.maxInFlight ≤ Text.maxWord
  maxBodyBytes : c.maxBodyBytes ≤ Text.maxWord
  writeChunkSize : c.writeChunkSize ≤ Text.maxWord
  threadStackSize : c.threadStackSize ≤ Text.maxWord

namespace Field

/-- A setting as a JSON value. -/
def get (c : Config) : Field → Json
  | .workerCount => .ofNat c.workerCount
  | .maxInFlight => .ofNat c.maxInFlight
  | .maxBodyBytes => .ofNat c.maxBodyBytes
  | .writeChunkSize => .ofNat c.writeChunkSize
  | .threadStackSize => .ofNat c.threadStackSize
  | .threadNamePrefix => .ofString c.threadNamePrefix
  | .defaultQos => .ofString c.defaultQos.name

/-- Take over a setting from `c`. -/
def copy (c d : Config) : Field → Config
  | .workerCount => { d with workerCount := c.workerCount }
  | .maxInFlight => { d with maxInFlight := c.maxInFlight }
  | .maxBodyBytes => { d with maxBodyBytes := c.maxBodyBytes }
  | .writeChunkSize => { d with writeChunkSize := c.writeChunkSize }
  | .threadStackSize => { d with threadStackSize := c.threadStackSize }
  | .threadNamePrefix => { d with threadNamePrefix := c.threadNamePrefix }
  | .defaultQos => { d with defaultQos := c.defaultQos }

theorem named?_name (field : Field) : named? field.name = some field := by
  cases field <;> decide

theorem plain_get (c : Config) (field : Field) : (field.get c).Plain := by
  cases field <;> constructor

end Field

theorem wordOfJson?_ofNat {n : Nat} (h : n ≤ Text.maxWord) : wordOfJson? (.ofNat n) = some n := by
  rw [Json.ofNat, wordOfJson?, if_pos ⟨Int.natCast_nonneg n, Int.ofNat_le.mpr h⟩]
  rfl

theorem Field.set?_get (h : c.Fits) (d : Config) (field : Field) :
    field.set? d (field.get c) = some (field.copy c d) := by
  cases field with
  | workerCount => rw [set?, get, wordOfJson?_ofNat h.workerCount]; rfl
  | maxInFlight => rw [set?, get, wordOfJson?_ofNat h.maxInFlight]; rfl
  | maxBodyBytes => rw [set?, get, wordOfJson?_ofNat h.maxBodyBytes]; rfl
  | writeChunkSize => rw [set?, get, wordOfJson?_ofNat h.writeChunkSize]; rfl
  | threadStackSize => rw [set?, get, wordOfJson?_ofNat h.threadStackSize]; rfl
  | threadNamePrefix => rfl
  | defaultQos =>
    rw [set?, get, Json.ofString, Qos.ofJson?, Qos.named?_name]
    rfl

/-- Members that are written for some settings are read onto others: these settings are taken over,
and the others stay. -/
theorem ofMembers?_map (h : c.Fits) {fields seen : List Field} (distinct : fields.Nodup)
    (fresh : ∀ field ∈ fields, field ∉ seen) (d : Config) :
    ofMembers? (fields.map fun field ↦ (.plain field.name, field.get c)) seen d =
      some (fields.foldl (Field.copy c) d) := by
  induction fields generalizing seen d with
  | nil => rfl
  | cons field fields ih =>
    rw [List.nodup_cons] at distinct
    rw [List.forall_mem_cons] at fresh
    rw [List.map_cons, ofMembers?, Field.named?_name]
    simp only [if_neg fresh.1, Field.set?_get h]
    refine ih distinct.2 (fun other hother ↦ ?_) _
    rw [List.mem_cons, not_or]
    exact ⟨fun heq ↦ distinct.1 (heq ▸ hother), fresh.2 other hother⟩

theorem toJson_eq (c : Config) :
    c.toJson = .object (Field.all.map fun field ↦ (.plain field.name, field.get c)) := rfl

theorem ofJson?_toJson (h : c.Fits) (defaults : Config) : ofJson? defaults c.toJson = some c := by
  rw [toJson_eq, ofJson?, ofMembers?_map h (by decide) (by simp)]
  rfl

theorem plain_toJson (c : Config) : c.toJson.Plain := by
  rw [toJson_eq]
  refine .object (fun member hmember ↦ ?_) (fun member hmember ↦ ?_)
  · obtain ⟨field, -, rfl⟩ := List.mem_map.mp hmember
    exact ⟨field.name, rfl⟩
  · obtain ⟨field, -, rfl⟩ := List.mem_map.mp hmember
    exact Field.plain_get c field

theorem validate_eq_ok_iff : c.validate = .ok c ↔ c.Valid := by
  rw [← defect?_eq_none_iff, validate]
  split <;> simp_all

/-- **Settings survive JSON.** Settings whose numbers fit a word are read back from the text that is
written for them exactly if they keep every rule, whatever the defaults are, and otherwise reading
says what checking them says. -/
theorem parse_render (defaults : Config) (h : c.Fits) :
    parse defaults c.render = c.validate.mapError .invalid ∧
      (parse defaults c.render = .ok c ↔ c.Valid) := by
  have hparse : parse defaults c.render = c.validate.mapError .invalid := by
    rw [parse, render, (plain_toJson c).parse?_render, Option.bind_eq_bind, Option.bind_some,
      ofJson?_toJson h]
  refine ⟨hparse, ?_⟩
  rw [hparse, ← validate_eq_ok_iff]
  cases c.validate with
  | ok d =>
    refine ⟨fun heq ↦ ?_, fun heq ↦ ?_⟩
    · exact congrArg Except.ok (Except.ok.inj heq)
    · exact congrArg Except.ok (Except.ok.inj heq)
  | error defect => exact ⟨nofun, nofun⟩

/-- Settings at the limits of a word whose prefix needs escapes of every form. -/
def escaped : Config where
  workerCount := Text.maxWord
  maxInFlight := Text.maxWord
  maxBodyBytes := Text.maxWord
  writeChunkSize := 1
  threadStackSize := Text.maxWord
  threadNamePrefix := "\"\\\n\x01/ä"
  defaultQos := .critical

/-- They survive JSON, and so does what is wrong with them if there are no workers. -/
theorem parse_render_escaped :
    escaped.Fits ∧ parse (.sized 1) escaped.render = .ok escaped ∧
      { escaped with workerCount := 0 }.Fits ∧
      parse (.sized 1) { escaped with workerCount := 0 }.render = .error (.invalid .noWorkers) := by
  have hfits : escaped.Fits := by constructor <;> decide
  have hvalid : escaped.Valid := by constructor <;> decide
  have hfits' : { escaped with workerCount := 0 }.Fits := by constructor <;> decide
  exact ⟨hfits, (parse_render (.sized 1) hfits).2.mpr hvalid, hfits',
    (parse_render (.sized 1) hfits').1⟩

end Config

end Turnstile
