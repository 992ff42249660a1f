import Mathlib.Algebra.Group.Nat.Defs
import Turnstile.Io

/-!
# Words and blocks

A machine counts in words of 64 bits and keeps bytes in blocks. A block has less than `2 ^ 63`
bytes, so its size is a word, and so is the sum of two sizes.

Everything here is checked: a sum or a difference that is not a word, a stretch that reaches out of
its block and a block that there is no room for halt the machine. What does not halt is exact, which
is what the lemmas beside each operation say.
-/

namespace Turnstile

/-- Why a machine halts. -/
inductive Halt where
  /-- A sum or a difference is not a word. -/
  | overflow
  /-- A stretch reaches out of its block. -/
  | range
  /-- There is no room for more bytes. -/
  | room
  deriving DecidableEq, Repr

theorem Halt.bind_eq_ok {α β : Type} {step : Except Halt α} {next : α → Except Halt β} {b : β} :
    step >>= next = .ok b ↔ ∃ a, step = .ok a ∧ next a = .ok b := by
  cases step with
  | ok a => exact ⟨fun h ↦ ⟨a, rfl, h⟩, fun ⟨_, ha, h⟩ ↦ by cases ha; exact h⟩
  | error halt => exact ⟨nofun, nofun⟩

namespace Word

/-- The sum of two words. -/
def add (a b : UInt64) : Except Halt UInt64 :=
  if a.toNat + b.toNat < 2 ^ 64 then .ok (a + b) else .error .overflow

/-- The difference of two words. -/
def sub (a b : UInt64) : Except Halt UInt64 :=
  if b ≤ a then .ok (a - b) else .error .overflow

theorem toNat_of_add {a b sum : UInt64} (h : add a b = .ok sum) :
    sum.toNat = a.toNat + b.toNat := by
  rw [add] at h
  split at h
  next hlt =>
    cases h
    rw [UInt64.toNat_add, Nat.mod_eq_of_lt hlt]
  next => cases h

theorem exists_add {a b : UInt64} (h : a.toNat + b.toNat < 2 ^ 64) : ∃ sum, add a b = .ok sum :=
  ⟨a + b, if_pos h⟩

/-- A step of the greatest size cannot be added to a step. -/
example : add 1 18446744073709551615 = .error .overflow := rfl

theorem exists_toNat {n : Nat} (h : n < 2 ^ 64) : ∃ a : UInt64, a.toNat = n :=
  ⟨.ofNatLT n h, UInt64.toNat_ofNatLT⟩

theorem sub_eq {a b : UInt64} (h : b.toNat ≤ a.toNat) :
    ∃ difference, sub a b = .ok difference ∧ difference.toNat = a.toNat - b.toNat :=
  have hle : b ≤ a := UInt64.le_iff_toNat_le.mpr h
  ⟨a - b, if_pos hle, UInt64.toNat_sub_of_le a b hle⟩

end Word

/-- Bytes that a machine can keep. How much room there is for more of them is not known here: it is
asked for, block by block. -/
structure Block where
  /-- The bytes. -/
  bytes : Bytes
  /-- There are not too many of them. -/
  length_lt : bytes.length < 2 ^ 63

namespace Block

/-- No bytes. -/
def empty : Block := ⟨[], by decide⟩

/-- How many bytes there are. -/
def size (b : Block) : UInt64 := .ofNatLT b.bytes.length (Nat.lt_trans b.length_lt (by decide))

@[simp] theorem toNat_size (b : Block) : b.size.toNat = b.bytes.length := UInt64.toNat_ofNatLT

theorem lt_size {a : UInt64} {b : Block} : a < b.size ↔ a.toNat < b.bytes.length := by
  rw [UInt64.lt_iff_toNat_lt, toNat_size]

theorem le_size {a : UInt64} {b : Block} : a ≤ b.size ↔ a.toNat ≤ b.bytes.length := by
  rw [UInt64.le_iff_toNat_le, toNat_size]

/-- The bytes from one place to another. -/
def slice (b : Block) (start stop : UInt64) : Except Halt Bytes :=
  if start ≤ stop ∧ stop ≤ b.size then .ok ((b.bytes.take stop.toNat).drop start.toNat)
  else .error .range

/-- A block with more bytes, if there is room for them. -/
def grow (room : Block → Block → Bool) (front more : Block) : Except Halt Block :=
  if h : room front more = true ∧ front.bytes.length + more.bytes.length < 2 ^ 63 then
    .ok ⟨front.bytes ++ more.bytes, List.length_append ▸ h.2⟩
  else .error .room

theorem slice_eq {b : Block} {start stop : UInt64} (h : start.toNat ≤ stop.toNat)
    (h' : stop.toNat ≤ b.bytes.length) :
    b.slice start stop = .ok ((b.bytes.take stop.toNat).drop start.toNat) :=
  if_pos ⟨UInt64.le_iff_toNat_le.mpr h, le_size.mpr h'⟩

/-- The sizes of two blocks have a sum, -/
theorem add_size_lt (front more : Block) : front.bytes.length + more.bytes.length < 2 ^ 64 := by
  have hfront := front.length_lt
  have hmore := more.length_lt
  omega

/-- and a limit is compared with that sum as it is. -/
theorem add_size_eq (front more : Block) : ∃ sum, Word.add front.size more.size = .ok sum ∧
    ∀ limit : UInt64, limit < sum ↔ limit.toNat < front.bytes.length + more.bytes.length := by
  obtain ⟨sum, hsum⟩ := Word.exists_add (a := front.size) (b := more.size)
    (by simpa using add_size_lt front more)
  have hexact := Word.toNat_of_add hsum
  exact ⟨sum, hsum, fun limit ↦ by rw [UInt64.lt_iff_toNat_lt, hexact, toNat_size, toNat_size]⟩

theorem grow_cases (room : Block → Block → Bool) (front more : Block) :
    (∃ whole, front.grow room more = .ok whole ∧ whole.bytes = front.bytes ++ more.bytes) ∨
      front.grow room more = .error .room ∧
        (room front more = true → 2 ^ 63 ≤ front.bytes.length + more.bytes.length) := by
  unfold grow
  split
  next => exact .inl ⟨_, rfl, rfl⟩
  next h => exact .inr ⟨rfl, fun hroom ↦ Nat.not_lt.mp fun hlt ↦ h ⟨hroom, hlt⟩⟩

end Block

/-- The piece of the body that an event brings, if it does, is not too long for a block. -/
def IoEvent.Fits : IoEvent → Prop
  | .data chunk => chunk.length < 2 ^ 63
  | _ => True

/-- An event whose piece of the body is a block. -/
structure BlockEvent where
  /-- The event. -/
  event : IoEvent
  /-- Its piece is a block. -/
  fits : event.Fits

end Turnstile
