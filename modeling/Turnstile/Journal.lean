/-!
# Journals

What only ever grows: entries in order, kept latest first beside their number. So adding an entry
takes the same time however many there are, an earlier state of a journal can be kept without a
copy, and what was added since is found without looking at the rest.

`toList` is the view that the rest of the library reasons with: an entry is added at its end, and
what was added since an earlier state is what stands behind that state.
-/

namespace Turnstile

/-- Entries in order. -/
structure Journal (α : Type) where
  /-- The entries, latest first. -/
  latestFirst : List α
  /-- How many entries there are. -/
  size : Nat
  /-- The number is that of the entries. -/
  size_eq : size = latestFirst.length
  deriving DecidableEq, Repr

namespace Journal

variable {α : Type}

/-- No entries. -/
def empty : Journal α := ⟨[], 0, rfl⟩

instance : Inhabited (Journal α) := ⟨empty⟩

/-- One more entry. -/
def push (j : Journal α) (x : α) : Journal α :=
  ⟨x :: j.latestFirst, j.size + 1, congrArg (· + 1) j.size_eq⟩

/-- More entries, in order. -/
def append (j : Journal α) (xs : List α) : Journal α := xs.foldl push j

instance : HAppend (Journal α) (List α) (Journal α) := ⟨append⟩

/-- The journal of some entries, given in order. -/
def ofList (xs : List α) : Journal α := empty.append xs

/-- The entries, oldest first. -/
def toList (j : Journal α) : List α := j.latestFirst.reverse

/-- There are no entries. -/
def isEmpty (j : Journal α) : Bool := j.size == 0

/-- The entries added since the journal was as `earlier`. -/
def since (j earlier : Journal α) : List α :=
  (j.latestFirst.take (j.size - earlier.size)).reverse

/-! ## The entries in order -/

@[simp] theorem toList_empty : (empty : Journal α).toList = [] := rfl

@[simp] theorem toList_push (j : Journal α) (x : α) : (j.push x).toList = j.toList ++ [x] :=
  List.reverse_cons

@[simp] theorem toList_append (j : Journal α) (xs : List α) :
    (j ++ xs).toList = j.toList ++ xs := by
  induction xs generalizing j with
  | nil => exact (List.append_nil _).symm
  | cons x xs ih => exact (ih (j.push x)).trans (by simp)

@[simp] theorem toList_ofList (xs : List α) : (ofList xs).toList = xs := toList_append empty xs

@[simp] theorem length_toList (j : Journal α) : j.toList.length = j.size :=
  List.length_reverse.trans j.size_eq.symm

/-- A journal is known by its entries. -/
theorem ext_toList {j₁ j₂ : Journal α} (h : j₁.toList = j₂.toList) : j₁ = j₂ := by
  obtain ⟨xs₁, size₁, rfl⟩ := j₁
  obtain ⟨xs₂, size₂, rfl⟩ := j₂
  obtain rfl : xs₁ = xs₂ := List.reverse_inj.mp h
  rfl

theorem size_append (j : Journal α) (xs : List α) : (j ++ xs).size = j.size + xs.length := by
  rw [← length_toList, toList_append, List.length_append, length_toList]

theorem append_nil (j : Journal α) : j ++ ([] : List α) = j := rfl

theorem append_append (j : Journal α) (xs ys : List α) : j ++ xs ++ ys = j ++ (xs ++ ys) :=
  ext_toList (by simp)

/-- What was added is what stands behind the entries of the earlier state. -/
theorem since_eq_drop (j earlier : Journal α) :
    j.since earlier = j.toList.drop earlier.size := by
  rw [since, toList, List.drop_reverse, ← j.size_eq]

@[simp] theorem since_self (j : Journal α) : j.since j = [] := by simp [since]

end Journal

end Turnstile
