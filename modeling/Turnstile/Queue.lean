import Std.Data.TreeMap
import Turnstile.Rank

/-!
# The waiting queue

A bounded queue of entries in the order of service. Entries are kept by their rank, and an index
from ordinals to classes finds the rank of an entry that has to move.
-/

namespace Turnstile

/-- Entries in the order of service, at most `maxDepth` of them. -/
structure Queue (α : Type) where
  /-- The most entries there may be. -/
  maxDepth : Nat
  /-- The entries by rank. -/
  entries : Std.TreeMap Rank α Rank.order
  /-- The class of the entry with each ordinal. -/
  index : Std.TreeMap Nat Qos

namespace Queue

variable {α : Type}

/-- Why an entry is not taken. -/
inductive Full where
  /-- There is no room. -/
  | maxDepth
  /-- An entry with this ordinal is there already. -/
  | alreadyQueued (ordinal : Nat)
  deriving DecidableEq, Repr

/-- The wording of why an entry is not taken. -/
def Full.reason : Full → String
  | .maxDepth => "max queue depth reached"
  | .alreadyQueued ordinal => "ordinal " ++ toString ordinal ++ " already queued"

/-- A queue without entries. -/
def empty (maxDepth : Nat) : Queue α := ⟨maxDepth, ∅, ∅⟩

/-- How many entries there are. -/
def size (q : Queue α) : Nat := q.entries.size

/-- There are no entries. -/
def isEmpty (q : Queue α) : Bool := q.entries.isEmpty

/-- An entry with this ordinal is there. -/
def contains (q : Queue α) (ordinal : Nat) : Bool := q.index.contains ordinal

/-- Put an item at its rank. An item that is not taken is handed back. -/
def enqueue (q : Queue α) (rank : Rank) (item : α) : Except (Full × α) (Queue α) :=
  if q.maxDepth ≤ q.size then .error (.maxDepth, item)
  else if q.contains rank.ordinal then .error (.alreadyQueued rank.ordinal, item)
  else .ok { q with
    entries := q.entries.insert rank item, index := q.index.insert rank.ordinal rank.qos }

/-- The rank of the entry that is served next. -/
def peek? (q : Queue α) : Option Rank := q.entries.minKey?

/-- Remove the entry that is served next. -/
def dequeue? (q : Queue α) : Option (Rank × α × Queue α) :=
  match q.entries.minKey? with
  | none => none
  | some rank =>
    match q.entries[rank]? with
    | none => none
    | some item =>
      some (rank, item,
        { q with entries := q.entries.erase rank, index := q.index.erase rank.ordinal })

theorem dequeue?_eq_some {q q' : Queue α} {rank : Rank} {item : α}
    (h : q.dequeue? = some (rank, item, q')) :
    q.entries.minKey? = some rank ∧ q.entries[rank]? = some item ∧
      q' = { q with entries := q.entries.erase rank, index := q.index.erase rank.ordinal } := by
  unfold dequeue? at h
  split at h
  · cases h
  next found hmin =>
    split at h
    · cases h
    next entry hentry => cases h; exact ⟨hmin, hentry, rfl⟩

theorem size_lt_of_dequeue? {q q' : Queue α} {rank : Rank} {item : α}
    (h : q.dequeue? = some (rank, item, q')) : q'.size < q.size := by
  obtain ⟨hmin, -, rfl⟩ := dequeue?_eq_some h
  have hmem : rank ∈ q.entries := (Std.TreeMap.minKey?_eq_some_iff_mem_and_forall.mp hmin).1
  have hempty : q.entries.isEmpty = false :=
    Std.TreeMap.isEmpty_eq_false_iff_exists_mem.mpr ⟨rank, hmem⟩
  rw [Std.TreeMap.isEmpty_eq_size_eq_zero, beq_eq_false_iff_ne] at hempty
  rw [size, size, Std.TreeMap.size_erase, if_pos (Std.TreeMap.contains_iff_mem.mpr hmem)]
  omega

/-- Move the entry with this ordinal to its place in another class and give its item. -/
def reprioritize? (q : Queue α) (ordinal : Nat) (qos : Qos) : Option (α × Queue α) :=
  match q.index[ordinal]? with
  | none => none
  | some old =>
    match q.entries[(⟨old, ordinal⟩ : Rank)]? with
    | none => none
    | some item =>
      some (item,
        { q with
          entries := (q.entries.erase ⟨old, ordinal⟩).insert ⟨qos, ordinal⟩ item
          index := q.index.insert ordinal qos })

/-- Replace the item at a rank that is taken. -/
def replace (q : Queue α) (rank : Rank) (item : α) : Queue α :=
  { q with entries := q.entries.modify rank fun _ ↦ item }

/-- The entries in the order of service. -/
def toList (q : Queue α) : List (Rank × α) := q.entries.toList

/-- The ordinals of the entries, in the order of service. -/
def ordinals (q : Queue α) : List Nat := q.toList.map fun entry ↦ entry.1.ordinal

/-- Remove every entry; the items come in the order of service. -/
def drain (q : Queue α) : List α × Queue α :=
  (q.toList.map Prod.snd, { q with entries := ∅, index := ∅ })

end Queue

end Turnstile
