import Mathlib.Data.List.Basic
import Turnstile.Queue

/-!
# The index of the waiting queue

A queue keeps its entries by rank and, beside them, an index from ordinals to classes. Everything
that finds an entry by its ordinal relies on the two saying the same, which is `Queue.Synced`: a
rank is taken exactly if the index has its class under its ordinal. Each operation keeps it, and
under it an ordinal occurs at most once.
-/

namespace Turnstile

namespace Queue

variable {α : Type} {q q' : Queue α} {rank : Rank} {ordinal : Nat} {qos : Qos} {item : α}

/-- The index has the class of every entry under its ordinal, and of nothing else. -/
def Synced (q : Queue α) : Prop :=
  ∀ rank : Rank, rank ∈ q.entries ↔ q.index[rank.ordinal]? = some rank.qos

theorem synced_empty (maxDepth : Nat) : (empty maxDepth : Queue α).Synced := by
  intro rank
  simp [empty]

@[simp] theorem size_empty (maxDepth : Nat) : (empty maxDepth : Queue α).size = 0 := rfl

/-! ## Taking an item in -/

theorem enqueue_eq_ok (h : q.enqueue rank item = .ok q') :
    q.size < q.maxDepth ∧ q.index[rank.ordinal]? = none ∧
      q' = { q with
        entries := q.entries.insert rank item, index := q.index.insert rank.ordinal rank.qos } := by
  unfold enqueue at h
  split at h
  · cases h
  · split at h
    · cases h
    next hdepth hfree =>
      cases h
      refine ⟨by omega, ?_, rfl⟩
      rw [contains, Std.TreeMap.contains_eq_isSome_getElem?] at hfree
      simpa using hfree

theorem Synced.notMem_entries (hq : q.Synced) (h : q.index[rank.ordinal]? = none) :
    rank ∉ q.entries := by
  rw [hq rank, h]
  simp

theorem index_enqueue (h : q.enqueue rank item = .ok q') (ordinal : Nat) :
    q'.index[ordinal]? = if rank.ordinal = ordinal then some rank.qos else q.index[ordinal]? := by
  obtain ⟨-, -, rfl⟩ := enqueue_eq_ok h
  simp only [Std.TreeMap.getElem?_insert, Nat.compare_eq_eq]

theorem Synced.enqueue (hq : q.Synced) (h : q.enqueue rank item = .ok q') : q'.Synced := by
  intro r
  rw [index_enqueue h]
  obtain ⟨-, hfree, rfl⟩ := enqueue_eq_ok h
  rw [Std.TreeMap.mem_insert, Std.LawfulEqCmp.compare_eq_iff_eq]
  by_cases hr : rank.ordinal = r.ordinal
  · have hmem : r ∉ q.entries := hq.notMem_entries (hr ▸ hfree)
    rw [if_pos hr]
    simp only [hmem, or_false, Option.some.injEq]
    constructor
    · rintro rfl; rfl
    · intro hqos
      cases rank; cases r; simp_all
  · rw [if_neg hr, hq r]
    have hne : rank ≠ r := fun heq ↦ hr (congrArg Rank.ordinal heq)
    simp [hne]

theorem size_enqueue (hq : q.Synced) (h : q.enqueue rank item = .ok q') :
    q'.size = q.size + 1 := by
  obtain ⟨-, hfree, rfl⟩ := enqueue_eq_ok h
  have hmem : rank ∉ q.entries := hq.notMem_entries hfree
  rw [size, size, Std.TreeMap.size_insert, if_neg (by simpa using hmem)]

/-! ## Serving the next entry -/

theorem minKey?_of_dequeue? (h : q.dequeue? = some (rank, item, q')) :
    rank ∈ q.entries ∧ ∀ r ∈ q.entries, (Rank.order rank r).isLE :=
  Std.TreeMap.minKey?_eq_some_iff_mem_and_forall.mp (dequeue?_eq_some h).1

theorem dequeue?_eq_none_iff : q.dequeue? = none ↔ q.size = 0 := by
  have hsize : q.size = 0 ↔ q.entries.minKey? = none := by
    rw [Std.TreeMap.minKey?_eq_none_iff, Std.TreeMap.isEmpty_eq_size_eq_zero, beq_iff_eq, size]
  rw [hsize]
  unfold dequeue?
  split
  next hmin => simp [hmin]
  next rank hmin =>
    have hmem : rank ∈ q.entries := (Std.TreeMap.minKey?_eq_some_iff_mem_and_forall.mp hmin).1
    have hsome : q.entries[rank]?.isSome := Std.TreeMap.isSome_getElem?_iff_mem.mpr hmem
    obtain ⟨item, hitem⟩ := Option.isSome_iff_exists.mp hsome
    simp [hmin, hitem]

theorem Synced.index_of_dequeue? (hq : q.Synced) (h : q.dequeue? = some (rank, item, q')) :
    q.index[rank.ordinal]? = some rank.qos := (hq rank).mp (minKey?_of_dequeue? h).1

theorem index_dequeue? (h : q.dequeue? = some (rank, item, q')) (ordinal : Nat) :
    q'.index[ordinal]? = if rank.ordinal = ordinal then none else q.index[ordinal]? := by
  obtain ⟨-, -, rfl⟩ := dequeue?_eq_some h
  simp only [Std.TreeMap.getElem?_erase, Nat.compare_eq_eq]

theorem Synced.dequeue? (hq : q.Synced) (h : q.dequeue? = some (rank, item, q')) : q'.Synced := by
  -- the entry taken out is the only one with its ordinal, since its class is the indexed one
  have hrank : q.index[rank.ordinal]? = some rank.qos := hq.index_of_dequeue? h
  intro r
  rw [index_dequeue? h]
  obtain ⟨-, -, rfl⟩ := dequeue?_eq_some h
  rw [Std.TreeMap.mem_erase, ne_eq, Std.LawfulEqCmp.compare_eq_iff_eq, hq r]
  by_cases hr : rank.ordinal = r.ordinal
  · rw [if_pos hr, ← hr, hrank]
    simp only [Option.some.injEq, reduceCtorEq, iff_false, not_and]
    intro hne hqos
    exact hne (by cases rank; cases r; simp_all)
  · have hne : rank ≠ r := fun heq ↦ hr (congrArg Rank.ordinal heq)
    simp [hr, hne]

theorem size_dequeue? (h : q.dequeue? = some (rank, item, q')) : q.size = q'.size + 1 := by
  have hlt := size_lt_of_dequeue? h
  have hmem : rank ∈ q.entries := (minKey?_of_dequeue? h).1
  obtain ⟨-, -, rfl⟩ := dequeue?_eq_some h
  simp only [size, Std.TreeMap.size_erase, Std.TreeMap.contains_iff_mem.mpr hmem, if_true] at hlt ⊢
  omega

/-! ## Moving an entry to another class -/

theorem reprioritize?_eq_some (h : q.reprioritize? ordinal qos = some (item, q')) :
    ∃ old, q.index[ordinal]? = some old ∧ q.entries[(⟨old, ordinal⟩ : Rank)]? = some item ∧
      q' = { q with
        entries := (q.entries.erase ⟨old, ordinal⟩).insert ⟨qos, ordinal⟩ item
        index := q.index.insert ordinal qos } := by
  unfold reprioritize? at h
  split at h
  · cases h
  next old hold =>
    split at h
    · cases h
    next entry hentry => cases h; exact ⟨old, hold, hentry, rfl⟩

theorem Synced.reprioritize?_eq_none_iff (hq : q.Synced) :
    q.reprioritize? ordinal qos = none ↔ q.index[ordinal]? = none := by
  unfold reprioritize?
  split
  next hnone => simp [hnone]
  next old hold =>
    have hmem : (⟨old, ordinal⟩ : Rank) ∈ q.entries := (hq ⟨old, ordinal⟩).mpr hold
    have hsome : q.entries[(⟨old, ordinal⟩ : Rank)]?.isSome :=
      Std.TreeMap.isSome_getElem?_iff_mem.mpr hmem
    obtain ⟨item, hitem⟩ := Option.isSome_iff_exists.mp hsome
    simp [hold, hitem]

theorem index_reprioritize? (h : q.reprioritize? ordinal qos = some (item, q')) (n : Nat) :
    q'.index[n]? = if ordinal = n then some qos else q.index[n]? := by
  obtain ⟨old, -, -, rfl⟩ := reprioritize?_eq_some h
  simp only [Std.TreeMap.getElem?_insert, Nat.compare_eq_eq]

theorem Synced.reprioritize? (hq : q.Synced) (h : q.reprioritize? ordinal qos = some (item, q')) :
    q'.Synced := by
  intro r
  rw [index_reprioritize? h]
  obtain ⟨old, hold, -, rfl⟩ := reprioritize?_eq_some h
  rw [Std.TreeMap.mem_insert, Std.TreeMap.mem_erase, ne_eq, Std.LawfulEqCmp.compare_eq_iff_eq,
    Std.LawfulEqCmp.compare_eq_iff_eq, hq r]
  obtain ⟨rq, rn⟩ := r
  by_cases hr : ordinal = rn
  · subst hr
    simp only [Rank.mk.injEq, and_true, if_true, hold, Option.some.injEq]
    constructor
    · rintro (h | ⟨h, h'⟩)
      · exact h
      · exact absurd h' h
    · exact Or.inl
  · simp [Rank.mk.injEq, hr]

theorem size_reprioritize? (hq : q.Synced) (h : q.reprioritize? ordinal qos = some (item, q')) :
    q'.size = q.size := by
  obtain ⟨old, hold, -, rfl⟩ := reprioritize?_eq_some h
  have hmem : (⟨old, ordinal⟩ : Rank) ∈ q.entries := (hq ⟨old, ordinal⟩).mpr hold
  have hpos : q.entries.size ≠ 0 := fun h0 ↦ by
    have hempty : q.entries.isEmpty = false :=
      Std.TreeMap.isEmpty_eq_false_iff_exists_mem.mpr ⟨_, hmem⟩
    rw [Std.TreeMap.isEmpty_eq_size_eq_zero, h0] at hempty
    exact absurd hempty (by simp)
  -- the new rank is free: with the old entry gone, no entry has the ordinal
  have hfree : (⟨qos, ordinal⟩ : Rank) ∉ q.entries.erase ⟨old, ordinal⟩ := by
    rw [Std.TreeMap.mem_erase, ne_eq, Std.LawfulEqCmp.compare_eq_iff_eq, hq, hold]
    simp
  rw [size, size, Std.TreeMap.size_insert, if_neg (by simpa using hfree), Std.TreeMap.size_erase,
    if_pos (Std.TreeMap.contains_iff_mem.mpr hmem)]
  omega

/-! ## Emptying the queue -/

theorem Synced.drain (q : Queue α) : q.drain.2.Synced := by
  intro rank
  simp [Queue.drain]

@[simp] theorem size_drain (q : Queue α) : q.drain.2.size = 0 := rfl

/-! ## The entries in the order of service -/

theorem Synced.index_of_mem_toList (hq : q.Synced) {entry : Rank × α} (h : entry ∈ q.toList) :
    q.index[entry.1.ordinal]? = some entry.1.qos := by
  have hitem : q.entries[entry.1]? = some entry.2 :=
    Std.TreeMap.mem_toList_iff_getElem?_eq_some.mp h
  rw [← hq entry.1, ← Std.TreeMap.isSome_getElem?_iff_mem, hitem]
  rfl

theorem Synced.mem_ordinals (hq : q.Synced) :
    ordinal ∈ q.ordinals ↔ ∃ qos, q.index[ordinal]? = some qos := by
  rw [ordinals, List.mem_map]
  constructor
  · rintro ⟨entry, hmem, rfl⟩
    exact ⟨entry.1.qos, hq.index_of_mem_toList hmem⟩
  · rintro ⟨qos, h⟩
    have hmem : (⟨qos, ordinal⟩ : Rank) ∈ q.entries := (hq ⟨qos, ordinal⟩).mpr h
    obtain ⟨item, hitem⟩ :=
      Option.isSome_iff_exists.mp (Std.TreeMap.isSome_getElem?_iff_mem.mpr hmem)
    exact ⟨(⟨qos, ordinal⟩, item), Std.TreeMap.mem_toList_iff_getElem?_eq_some.mpr hitem, rfl⟩

theorem length_ordinals (q : Queue α) : q.ordinals.length = q.size := by
  rw [ordinals, List.length_map, toList, Std.TreeMap.length_toList, size]

/-- An ordinal occurs once: two entries under it would have the same class, so the same rank. -/
theorem Synced.nodup_ordinals (hq : q.Synced) : q.ordinals.Nodup := by
  rw [ordinals, List.Nodup, List.pairwise_map]
  refine List.Pairwise.imp_of_mem ?_ (Std.TreeMap.distinct_keys_toList (t := q.entries))
  intro a b ha hb hne hord
  have hqos : a.1.qos = b.1.qos := by
    have h := hq.index_of_mem_toList ha
    rw [hord, hq.index_of_mem_toList hb] at h
    exact (Option.some.inj h).symm
  apply hne
  rw [Std.LawfulEqCmp.compare_eq_iff_eq]
  exact Rank.ext hqos hord

end Queue

end Turnstile
