import Std.Data.ExtTreeMap
import Turnstile.Proofs.Pool.Order

/-!
# The queue as a finite map

For those who use it a queue is a finite map: which ordinals are there, with the class and the item
of each. That it keeps its entries by rank, and an index beside them, is its own affair. A roster is
that map, and `Roster.Step` says of every operation what it answers and what it leaves, in terms of
the map alone. An entry is served first if no class is higher than its own and, within the class, no
ordinal is lower (`Roster.First`).

The queue shows a roster as long as its entries and its index both say what the roster says
(`Queue.Shows`). Each operation keeps this and gives the answer of the roster, so any operations one
after the other do.
-/

namespace Turnstile

namespace Queue

variable {α : Type}

/-- What a queue is asked. -/
inductive Op (α : Type) where
  /-- To take an item in at a rank. -/
  | enqueue (rank : Rank) (item : α)
  /-- To give out the entry that is served next. -/
  | dequeue
  /-- To show the rank of the entry that is served next. -/
  | peek
  /-- To move the entry with this ordinal to another class. -/
  | reprioritize (ordinal : Nat) (qos : Qos)
  /-- To say whether there is an entry with this ordinal. -/
  | contains (ordinal : Nat)
  /-- To give out all items. -/
  | drain

/-- What a queue answers. -/
inductive Answer (α : Type) where
  /-- The item is in. -/
  | taken
  /-- The item is handed back. -/
  | refused (why : Full) (item : α)
  /-- This entry was served next, if there was any. -/
  | served (first? : Option (Rank × α))
  /-- This rank is served next, if there is any. -/
  | next (rank? : Option Rank)
  /-- The entry with this item was moved, if there was one. -/
  | moved (item? : Option α)
  /-- Whether there is an entry. -/
  | found (there : Bool)
  /-- These items were there, in the order of service. -/
  | drained (items : List α)

/-- Carry out one operation. -/
def perform (q : Queue α) : Op α → Answer α × Queue α
  | .enqueue rank item =>
    match q.enqueue rank item with
    | .ok q => (.taken, q)
    | .error (why, item) => (.refused why item, q)
  | .dequeue =>
    match q.dequeue? with
    | some (rank, item, q) => (.served (some (rank, item)), q)
    | none => (.served none, q)
  | .peek => (.next q.peek?, q)
  | .reprioritize ordinal qos =>
    match q.reprioritize? ordinal qos with
    | some (item, q) => (.moved (some item), q)
    | none => (.moved none, q)
  | .contains ordinal => (.found (q.contains ordinal), q)
  | .drain => (.drained q.drain.1, q.drain.2)

/-- Carry out operations one after the other. -/
def performAll (q : Queue α) : List (Op α) → List (Answer α) × Queue α
  | [] => ([], q)
  | op :: ops =>
    let (answer, q) := q.perform op
    let (answers, q) := q.performAll ops
    (answer :: answers, q)

/-- The items in the queue, in the order of service. -/
def items (q : Queue α) : List α := q.toList.map Prod.snd

/-- The items that an operation brings in, by its answer. -/
def Op.taken : Op α → Answer α → List α
  | .enqueue _ item, .taken => [item]
  | _, _ => []

/-- The items that an answer gives out. -/
def Answer.given : Answer α → List α
  | .served (some (_, item)) => [item]
  | .drained items => items
  | _ => []

/-- The items that operations bring in, by their answers. -/
def takenIn (ops : List (Op α)) (answers : List (Answer α)) : List α :=
  (List.zipWith Op.taken ops answers).flatten

/-- The items that answers give out. -/
def givenOut (answers : List (Answer α)) : List α := answers.flatMap Answer.given

end Queue

/-! ## Rosters -/

/-- The entries of a queue as a finite map from ordinals to classes and items. -/
abbrev Roster (α : Type) := Std.ExtTreeMap Nat (Qos × α)

namespace Roster

variable {α : Type} {m m' : Roster α} {rank : Rank} {item : α} {maxDepth : Nat}

/-- This entry is served first: its class is the highest, and within the class its ordinal is the
lowest. -/
structure First (m : Roster α) (rank : Rank) (item : α) : Prop where
  /-- It is an entry. -/
  mem : m[rank.ordinal]? = some (rank.qos, item)
  /-- Any other has a lower class, or the same class and a higher ordinal. -/
  least : ∀ {ordinal : Nat} {qos : Qos} {other : α}, m[ordinal]? = some (qos, other) →
    qos.rank < rank.qos.rank ∨ qos = rank.qos ∧ rank.ordinal ≤ ordinal

/-- These are the entries in the order in which they are served one after the other. -/
inductive Serves : Roster α → List (Rank × α) → Prop
  /-- Nobody is there. -/
  | nil : Serves ∅ []
  /-- One is served first, and then the others. -/
  | cons {m : Roster α} {rank : Rank} {item : α} {rest : List (Rank × α)}
    (first : m.First rank item)
      (serves : Serves (m.erase rank.ordinal) rest) : Serves m ((rank, item) :: rest)

open Queue (Op Answer)

/-- What an operation answers and leaves, where there may be `maxDepth` entries. -/
inductive Step (maxDepth : Nat) : Roster α → Op α → Answer α → Roster α → Prop
  /-- There is room, and the ordinal is new. -/
  | take {m : Roster α} {rank : Rank} (item : α) (room : m.size < maxDepth)
      (new : rank.ordinal ∉ m) :
      Step maxDepth m (.enqueue rank item) .taken (m.insert rank.ordinal (rank.qos, item))
  /-- There is no room. -/
  | full {m : Roster α} (rank : Rank) (item : α) (full : maxDepth ≤ m.size) :
      Step maxDepth m (.enqueue rank item) (.refused .maxDepth item) m
  /-- There is room, but the ordinal is not new. -/
  | twice {m : Roster α} {rank : Rank} (item : α) (room : m.size < maxDepth)
      (there : rank.ordinal ∈ m) :
      Step maxDepth m (.enqueue rank item) (.refused (.alreadyQueued rank.ordinal) item) m
  /-- The first is served. -/
  | serve {m : Roster α} {rank : Rank} {item : α} (first : m.First rank item) :
      Step maxDepth m .dequeue (.served (some (rank, item))) (m.erase rank.ordinal)
  /-- Nobody is there to be served. -/
  | serveNobody : Step maxDepth ∅ .dequeue (.served none) ∅
  /-- The first is shown. -/
  | look {m : Roster α} {rank : Rank} {item : α} (first : m.First rank item) :
      Step maxDepth m .peek (.next (some rank)) m
  /-- Nobody is there to be shown. -/
  | lookNobody : Step maxDepth ∅ .peek (.next none) ∅
  /-- An entry keeps its item and gets another class. -/
  | move {m : Roster α} {ordinal : Nat} {old : Qos} {item : α} (qos : Qos)
      (there : m[ordinal]? = some (old, item)) :
      Step maxDepth m (.reprioritize ordinal qos) (.moved (some item))
        (m.insert ordinal (qos, item))
  /-- Nobody is there to be moved. -/
  | moveNobody {m : Roster α} {ordinal : Nat} (qos : Qos) (gone : ordinal ∉ m) :
      Step maxDepth m (.reprioritize ordinal qos) (.moved none) m
  /-- It is looked up whether an ordinal is there. -/
  | find (m : Roster α) (ordinal : Nat) :
      Step maxDepth m (.contains ordinal) (.found (m.contains ordinal)) m
  /-- All are served. -/
  | drain {m : Roster α} {entries : List (Rank × α)} (serves : m.Serves entries) :
      Step maxDepth m .drain (.drained (entries.map Prod.snd)) ∅

/-- What operations answer and leave one after the other. -/
inductive Run (maxDepth : Nat) : Roster α → List (Op α) → List (Answer α) → Roster α → Prop
  /-- Nothing was asked. -/
  | nil (m : Roster α) : Run maxDepth m [] [] m
  /-- One operation was carried out, and then the others. -/
  | cons {m m₁ m' : Roster α} {op : Op α} {ops : List (Op α)} {answer : Answer α}
      {answers : List (Answer α)} (step : Step maxDepth m op answer m₁)
      (run : Run maxDepth m₁ ops answers m') : Run maxDepth m (op :: ops) (answer :: answers) m'

theorem Step.size_le {op : Op α} {answer : Answer α} (h : Step maxDepth m op answer m')
    (hm : m.size ≤ maxDepth) : m'.size ≤ maxDepth := by
  cases h with
  | take item room new =>
    rw [Std.ExtTreeMap.size_insert]
    split <;> omega
  | serve first => exact Std.ExtTreeMap.size_erase_le.trans hm
  | move qos there =>
    rw [Std.ExtTreeMap.size_insert, Std.ExtTreeMap.contains_eq_isSome_getElem?, there]
    exact hm
  | drain serves => exact Nat.zero_le _
  | _ => exact hm

theorem Run.size_le {ops : List (Op α)} {answers : List (Answer α)}
    (h : Run maxDepth m ops answers m') (hm : m.size ≤ maxDepth) : m'.size ≤ maxDepth := by
  induction h with
  | nil => exact hm
  | cons step run ih => exact ih (step.size_le hm)

end Roster

/-! ## Queues and rosters -/

namespace Queue

variable {α : Type} {q q' : Queue α} {m : Roster α} {rank : Rank} {ordinal : Nat} {qos : Qos}
  {item : α}

/-- The queue stands for the roster: its entries and its index say what the roster says. -/
structure Shows (q : Queue α) (m : Roster α) : Prop where
  /-- The entries of the roster are there under their ranks. -/
  entries : ∀ (rank : Rank) (item : α), q.entries[rank]? = some item ↔
    m[rank.ordinal]? = some (rank.qos, item)
  /-- The index has their classes. -/
  index : ∀ ordinal : Nat, q.index[ordinal]? = m[ordinal]?.map Prod.fst
  /-- There are as many as in the roster. -/
  size : q.size = m.size

namespace Shows

theorem empty (maxDepth : Nat) : (Queue.empty maxDepth : Queue α).Shows ∅ where
  entries rank item := by simp [Queue.empty]
  index ordinal := by simp [Queue.empty]
  size := rfl

theorem synced (h : q.Shows m) : q.Synced := by
  intro rank
  rw [← Std.TreeMap.isSome_getElem?_iff_mem, Option.isSome_iff_exists, h.index,
    Option.map_eq_some_iff]
  constructor
  · rintro ⟨item, hitem⟩
    exact ⟨(rank.qos, item), (h.entries rank item).mp hitem, rfl⟩
  · rintro ⟨⟨qos, item⟩, hentry, rfl⟩
    exact ⟨item, (h.entries rank item).mpr hentry⟩

theorem contains_eq (h : q.Shows m) (ordinal : Nat) : q.contains ordinal = m.contains ordinal := by
  rw [contains, Std.TreeMap.contains_eq_isSome_getElem?, h.index, Option.isSome_map,
    Std.ExtTreeMap.contains_eq_isSome_getElem?]

theorem index_eq_none (h : q.Shows m) : q.index[ordinal]? = none ↔ ordinal ∉ m := by
  rw [h.index, Option.map_eq_none_iff, Std.ExtTreeMap.mem_iff_isSome_getElem?]
  simp

theorem eq_empty (h : q.Shows m) (hsize : q.size = 0) : m = ∅ := by
  rw [Std.ExtTreeMap.eq_empty_iff_size_eq_zero, ← h.size, hsize]

theorem first (h : q.Shows m) (hmin : q.entries.minKey? = some rank) :
    ∃ item, q.entries[rank]? = some item ∧ m.First rank item := by
  obtain ⟨hmem, hle⟩ := Std.TreeMap.minKey?_eq_some_iff_mem_and_forall.mp hmin
  obtain ⟨item, hitem⟩ := Option.isSome_iff_exists.mp (Std.TreeMap.isSome_getElem?_iff_mem.mpr hmem)
  refine ⟨item, hitem, (h.entries rank item).mp hitem, fun {ordinal qos other} hother ↦ ?_⟩
  have hentry : q.entries[(⟨qos, ordinal⟩ : Rank)]? = some other := (h.entries _ other).mpr hother
  have horder := hle ⟨qos, ordinal⟩ (Std.TreeMap.isSome_getElem?_iff_mem.mp (by rw [hentry]; rfl))
  cases heq : Rank.order rank ⟨qos, ordinal⟩ with
  | lt =>
    rcases Rank.order_eq_lt_iff.mp heq with hlt | ⟨hqos, hlt⟩
    · exact .inl hlt
    · exact .inr ⟨hqos.symm, Nat.le_of_lt hlt⟩
  | eq =>
    cases Std.LawfulEqCmp.compare_eq_iff_eq.mp heq
    exact .inr ⟨rfl, Nat.le_refl _⟩
  | gt =>
    rw [heq] at horder
    cases horder

/-! ### Operations -/

theorem enqueue (h : q.Shows m) (hq : q.enqueue rank item = .ok q') :
    q'.Shows (m.insert rank.ordinal (rank.qos, item)) := by
  have hsize := size_enqueue h.synced hq
  have hindex := index_enqueue hq
  obtain ⟨-, hfree, rfl⟩ := enqueue_eq_ok hq
  have hnew := h.index_eq_none.mp hfree
  refine ⟨fun r x ↦ ?entries, fun n ↦ ?index, ?size⟩
  case entries =>
    simp only [Std.TreeMap.getElem?_insert, Std.ExtTreeMap.getElem?_insert,
      Std.LawfulEqCmp.compare_eq_iff_eq]
    by_cases hr : rank.ordinal = r.ordinal
    · -- no other entry has the ordinal
      have hnone : q.entries[r]? = none :=
        Std.TreeMap.getElem?_eq_none (h.synced.notMem_entries (hr ▸ hfree))
      rw [if_pos hr, hnone]
      by_cases heq : rank = r
      · subst heq
        simp
      · have hqos : rank.qos ≠ r.qos := fun hqos ↦ heq (Rank.ext hqos hr)
        simp [heq, hqos]
    · have hne : rank ≠ r := fun heq ↦ hr (congrArg Rank.ordinal heq)
      rw [if_neg hr, if_neg hne]
      exact h.entries r x
  case index =>
    simp only [hindex, Std.ExtTreeMap.getElem?_insert, Nat.compare_eq_eq]
    split
    · rfl
    · exact h.index n
  case size =>
    rw [Std.ExtTreeMap.size_insert, if_neg (by simpa using hnew), ← h.size]
    exact hsize

theorem dequeue? (h : q.Shows m) (hq : q.dequeue? = some (rank, item, q')) :
    q'.Shows (m.erase rank.ordinal) := by
  have hsize := size_dequeue? hq
  have hindex := index_dequeue? hq
  obtain ⟨-, hitem, rfl⟩ := dequeue?_eq_some hq
  have hentry := (h.entries rank item).mp hitem
  refine ⟨fun r x ↦ ?entries, fun n ↦ ?index, ?size⟩
  case entries =>
    simp only [Std.TreeMap.getElem?_erase, Std.ExtTreeMap.getElem?_erase,
      Std.LawfulEqCmp.compare_eq_iff_eq]
    by_cases hr : rank.ordinal = r.ordinal
    · rw [if_pos hr]
      by_cases heq : rank = r
      · simp [heq]
      · -- the ordinal has one class only
        rw [if_neg heq, h.entries, ← hr, hentry]
        have hqos : rank.qos ≠ r.qos := fun hqos ↦ heq (Rank.ext hqos hr)
        simp [hqos]
    · have hne : rank ≠ r := fun heq ↦ hr (congrArg Rank.ordinal heq)
      rw [if_neg hr, if_neg hne]
      exact h.entries r x
  case index =>
    simp only [hindex, Std.ExtTreeMap.getElem?_erase, Nat.compare_eq_eq]
    split
    · rfl
    · exact h.index n
  case size =>
    have hmem : m.contains rank.ordinal = true := by
      rw [Std.ExtTreeMap.contains_eq_isSome_getElem?, hentry]
      rfl
    rw [Std.ExtTreeMap.size_erase, if_pos hmem, ← h.size]
    omega

theorem reprioritize? (h : q.Shows m) (hq : q.reprioritize? ordinal qos = some (item, q')) :
    (∃ old, m[ordinal]? = some (old, item)) ∧ q'.Shows (m.insert ordinal (qos, item)) := by
  have hsize := size_reprioritize? h.synced hq
  have hindex := index_reprioritize? hq
  obtain ⟨old, -, hitem, rfl⟩ := reprioritize?_eq_some hq
  have hentry : m[ordinal]? = some (old, item) := (h.entries ⟨old, ordinal⟩ item).mp hitem
  refine ⟨⟨old, hentry⟩, fun r x ↦ ?entries, fun n ↦ ?index, ?size⟩
  case entries =>
    simp only [Std.TreeMap.getElem?_insert, Std.TreeMap.getElem?_erase,
      Std.ExtTreeMap.getElem?_insert, Std.LawfulEqCmp.compare_eq_iff_eq, Rank.ext_iff]
    by_cases hr : ordinal = r.ordinal
    · subst hr
      by_cases hqos : qos = r.qos
      · simp [hqos]
      · by_cases hold : old = r.qos
        · simp [hqos, hold]
        · rw [if_neg (by simp [hqos]), if_neg (by simp [hold]), h.entries, hentry]
          simp [hqos, hold]
    · simp only [hr, and_false, if_false]
      exact h.entries r x
  case index =>
    simp only [hindex, Std.ExtTreeMap.getElem?_insert, Nat.compare_eq_eq]
    split
    · rfl
    · exact h.index n
  case size =>
    have hmem : m.contains ordinal = true := by
      rw [Std.ExtTreeMap.contains_eq_isSome_getElem?, hentry]
      rfl
    rw [Std.ExtTreeMap.size_insert, if_pos hmem, ← h.size]
    exact hsize

theorem serves (h : q.Shows m) : m.Serves q.toList := by
  induction hn : q.size generalizing q m with
  | zero =>
    have hlist : q.toList = [] :=
      List.eq_nil_of_length_eq_zero (Std.TreeMap.length_toList.trans hn)
    rw [h.eq_empty hn, hlist]
    exact .nil
  | succ n ih =>
    have hsome : q.dequeue? ≠ none := by
      rw [ne_eq, dequeue?_eq_none_iff]
      omega
    obtain ⟨⟨rank, item, q'⟩, hq⟩ := Option.ne_none_iff_exists'.mp hsome
    have hsize := size_dequeue? hq
    obtain ⟨hmin, hitem, -⟩ := dequeue?_eq_some hq
    obtain ⟨item', hitem', hfirst⟩ := h.first hmin
    cases hitem.symm.trans hitem'
    rw [toList_dequeue? hq]
    exact .cons hfirst (ih (h.dequeue? hq) (by omega))

/-- **An operation on a queue is one on the roster**: it gives the same answer, and afterwards the
queue shows what the roster is. -/
theorem perform (h : q.Shows m) (op : Op α) :
    ∃ m', m.Step q.maxDepth op (q.perform op).1 m' ∧ (q.perform op).2.Shows m' := by
  cases op with
  | enqueue rank item =>
    cases hq : q.enqueue rank item with
    | ok q' =>
      simp only [Queue.perform, hq]
      obtain ⟨hroom, hfree, -⟩ := enqueue_eq_ok hq
      exact ⟨_, .take item (h.size ▸ hroom) (h.index_eq_none.mp hfree), h.enqueue hq⟩
    | error refusal =>
      obtain ⟨why, item'⟩ := refusal
      simp only [Queue.perform, hq]
      unfold Queue.enqueue at hq
      split at hq
      next hfull =>
        cases hq
        exact ⟨m, .full rank item (h.size ▸ hfull), h⟩
      next hroom =>
        split at hq
        next hthere =>
          cases hq
          rw [h.size] at hroom
          rw [h.contains_eq] at hthere
          exact ⟨m, .twice item (by omega) (Std.ExtTreeMap.contains_iff_mem.mp hthere), h⟩
        · cases hq
  | dequeue =>
    cases hq : q.dequeue? with
    | none =>
      simp only [Queue.perform, hq]
      obtain rfl := h.eq_empty (dequeue?_eq_none_iff.mp hq)
      exact ⟨∅, .serveNobody, h⟩
    | some served =>
      obtain ⟨rank, item, q'⟩ := served
      simp only [Queue.perform, hq]
      obtain ⟨hmin, hitem, -⟩ := dequeue?_eq_some hq
      obtain ⟨item', hitem', hfirst⟩ := h.first hmin
      cases hitem.symm.trans hitem'
      exact ⟨_, .serve hfirst, h.dequeue? hq⟩
  | peek =>
    simp only [Queue.perform, peek?]
    cases hmin : q.entries.minKey? with
    | none =>
      rw [Std.TreeMap.minKey?_eq_none_iff, Std.TreeMap.isEmpty_eq_size_eq_zero, beq_iff_eq] at hmin
      obtain rfl := h.eq_empty hmin
      exact ⟨∅, .lookNobody, h⟩
    | some rank =>
      obtain ⟨item, -, hfirst⟩ := h.first hmin
      exact ⟨m, .look hfirst, h⟩
  | reprioritize ordinal qos =>
    cases hq : q.reprioritize? ordinal qos with
    | none =>
      simp only [Queue.perform, hq]
      exact ⟨m, .moveNobody qos (h.index_eq_none.mp (h.synced.reprioritize?_eq_none_iff.mp hq)), h⟩
    | some moved =>
      obtain ⟨item, q'⟩ := moved
      simp only [Queue.perform, hq]
      obtain ⟨⟨old, hthere⟩, hmoved⟩ := h.reprioritize? hq
      exact ⟨_, .move qos hthere, hmoved⟩
  | contains ordinal =>
    simp only [Queue.perform, h.contains_eq]
    exact ⟨m, .find m ordinal, h⟩
  | drain => exact ⟨∅, .drain h.serves, ⟨by simp [Queue.perform, Queue.drain],
      by simp [Queue.perform, Queue.drain], rfl⟩⟩

end Shows

theorem maxDepth_perform (q : Queue α) (op : Op α) : (q.perform op).2.maxDepth = q.maxDepth := by
  cases op with
  | enqueue rank item =>
    rw [perform]
    split
    next q' hq =>
      obtain ⟨-, -, rfl⟩ := enqueue_eq_ok hq
      rfl
    · rfl
  | dequeue =>
    rw [perform]
    split
    next rank item q' hq =>
      obtain ⟨-, -, rfl⟩ := dequeue?_eq_some hq
      rfl
    · rfl
  | reprioritize ordinal qos =>
    rw [perform]
    split
    next item q' hq =>
      obtain ⟨old, -, -, rfl⟩ := reprioritize?_eq_some hq
      rfl
    · rfl
  | _ => rfl

theorem maxDepth_performAll (q : Queue α) (ops : List (Op α)) :
    (q.performAll ops).2.maxDepth = q.maxDepth := by
  induction ops generalizing q with
  | nil => rfl
  | cons op ops ih => exact (ih (q.perform op).2).trans (maxDepth_perform q op)

theorem Shows.performAll (h : q.Shows m) (ops : List (Op α)) :
    ∃ m', Roster.Run q.maxDepth m ops (q.performAll ops).1 m' ∧ (q.performAll ops).2.Shows m' := by
  induction ops generalizing q m with
  | nil => exact ⟨m, .nil m, h⟩
  | cons op ops ih =>
    obtain ⟨m₁, hstep, h₁⟩ := h.perform op
    obtain ⟨m', hrun, h'⟩ := ih h₁
    rw [maxDepth_perform] at hrun
    exact ⟨m', .cons hstep hrun, h'⟩

/-! ## Serving all -/

/-- Serving one after the other gives out the entries in the order in which they stand. -/
theorem performAll_dequeue (q : Queue α) :
    (q.performAll (List.replicate q.size .dequeue)).1 =
      q.toList.map fun entry ↦ .served (some entry) := by
  induction hn : q.size generalizing q with
  | zero =>
    have hlist : q.toList = [] :=
      List.eq_nil_of_length_eq_zero (Std.TreeMap.length_toList.trans hn)
    rw [hlist]
    rfl
  | succ n ih =>
    have hsome : q.dequeue? ≠ none := by
      rw [ne_eq, dequeue?_eq_none_iff]
      omega
    obtain ⟨⟨rank, item, q'⟩, hq⟩ := Option.ne_none_iff_exists'.mp hsome
    have hsize := size_dequeue? hq
    rw [List.replicate_succ, performAll, perform, hq, toList_dequeue? hq, List.map_cons,
      ← ih q' (by omega)]

/-! ## Keeping the items -/

theorem toList_insert_perm {t : Std.TreeMap Rank α Rank.order} (h : rank ∉ t) (item : α) :
    (t.insert rank item).toList.Perm ((rank, item) :: t.toList) := by
  refine Std.TreeMap.toList_insert_perm.trans (.of_eq (congrArg _ ?_))
  refine List.filter_eq_self.mpr fun entry hentry ↦ ?_
  have hne : rank ≠ entry.1 := by
    rintro rfl
    have hsome : t[entry.1]? = some entry.2 := Std.TreeMap.mem_toList_iff_getElem?_eq_some.mp hentry
    exact h (Std.TreeMap.isSome_getElem?_iff_mem.mp (by rw [hsome]; rfl))
  simpa using hne

theorem toList_erase_perm {t : Std.TreeMap Rank α Rank.order} (h : t[rank]? = some item) :
    t.toList.Perm ((rank, item) :: (t.erase rank).toList) := by
  -- what was taken out is put back
  have hequiv : ((t.erase rank).insert rank item).Equiv t := by
    refine Std.TreeMap.Equiv.of_forall_constGet?_eq fun r ↦ ?_
    simp only [Std.TreeMap.getElem?_insert, Std.TreeMap.getElem?_erase,
      Std.LawfulEqCmp.compare_eq_iff_eq]
    by_cases hr : rank = r
    · rw [if_pos hr, ← hr, h]
    · rw [if_neg hr, if_neg hr]
  rw [← hequiv.toList_eq]
  exact toList_insert_perm (by simp [Std.TreeMap.mem_erase]) item

/-- An operation keeps the items: those in the queue before, with those it brings in, are those it
gives out, with those in the queue afterwards. -/
theorem Synced.items_perform (h : q.Synced) (op : Op α) :
    (q.items ++ op.taken (q.perform op).1).Perm
      ((q.perform op).1.given ++ (q.perform op).2.items) := by
  cases op with
  | enqueue rank item =>
    rw [perform]
    split
    next q' hq =>
      obtain ⟨-, hfree, rfl⟩ := enqueue_eq_ok hq
      have hinsert := (toList_insert_perm (h.notMem_entries hfree) item).map Prod.snd
      exact List.perm_append_comm.trans hinsert.symm
    · exact .of_eq (List.append_nil _)
  | dequeue =>
    rw [perform]
    split
    next rank item q' hq =>
      rw [items, toList_dequeue? hq]
      exact .of_eq (List.append_nil _)
    · exact .of_eq (List.append_nil _)
  | reprioritize ordinal qos =>
    rw [perform]
    split
    next item q' hq =>
      obtain ⟨old, hold, hitem, rfl⟩ := reprioritize?_eq_some hq
      -- with the old entry gone, no entry has the ordinal
      have hfree : (⟨qos, ordinal⟩ : Rank) ∉ q.entries.erase ⟨old, ordinal⟩ := by
        rw [Std.TreeMap.mem_erase, ne_eq, Std.LawfulEqCmp.compare_eq_iff_eq, h, hold]
        simp
      have herase := (toList_erase_perm hitem).map Prod.snd
      have hinsert := (toList_insert_perm hfree item).map Prod.snd
      exact (List.Perm.of_eq (List.append_nil _)).trans (herase.trans hinsert.symm)
    · exact .of_eq (List.append_nil _)
  | drain => exact .refl _
  | _ => exact .of_eq (List.append_nil _)

theorem Shows.items_performAll (h : q.Shows m) (ops : List (Op α)) :
    (q.items ++ takenIn ops (q.performAll ops).1).Perm
      (givenOut (q.performAll ops).1 ++ (q.performAll ops).2.items) := by
  induction ops generalizing q m with
  | nil => exact .of_eq (List.append_nil _)
  | cons op ops ih =>
    obtain ⟨m₁, -, h₁⟩ := h.perform op
    have hfirst := (h.synced.items_perform op).append_right
      (takenIn ops ((q.perform op).2.performAll ops).1)
    have hrest := (ih h₁).append_left (q.perform op).1.given
    rw [List.append_assoc, List.append_assoc] at hfirst
    refine (hfirst.trans hrest).trans (.of_eq ?_)
    rw [← List.append_assoc]
    rfl

/-! ## What holds after any operations -/

/-- What holds after operations on a new queue for `maxDepth` entries. -/
structure Refines (maxDepth : Nat) (ops : List (Op α)) (answers : List (Answer α)) (q : Queue α) :
    Prop where
  /-- The answers are those of a finite map, and the queue stands for what the map has become. -/
  run : ∃ m, Roster.Run maxDepth ∅ ops answers m ∧ q.Shows m
  /-- A rank is taken exactly if the index has its class under its ordinal. -/
  synced : ∀ rank : Rank, rank ∈ q.entries ↔ q.index[rank.ordinal]? = some rank.qos
  /-- Each ordinal occurs once at most. -/
  once : q.ordinals.Nodup
  /-- There is room for all. -/
  size_le : q.size ≤ maxDepth
  /-- Emptied at once the queue gives out the items that it gives out one after the other, in this
  order, and is a new one. -/
  drain : ∃ entries : List (Rank × α),
    (q.performAll (List.replicate q.size .dequeue)).1 = entries.map (.served ∘ some) ∧
      q.perform .drain = (.drained (entries.map Prod.snd), .empty maxDepth)
  /-- What was brought in was given out or is still there, and each item once. -/
  conserved : (takenIn ops answers).Perm (givenOut answers ++ q.items)

/-- **A queue is a finite map.** Whatever is asked of a new queue, it answers as the finite map
does from ordinals to classes and items that has room for `maxDepth` entries. -/
theorem performAll_refines (maxDepth : Nat) (ops : List (Op α)) :
    Refines maxDepth ops ((empty maxDepth : Queue α).performAll ops).1
      ((empty maxDepth : Queue α).performAll ops).2 := by
  have hnew : (empty maxDepth : Queue α).Shows ∅ := .empty maxDepth
  obtain ⟨m, hrun, hshows⟩ := hnew.performAll ops
  have hdepth : ((empty maxDepth : Queue α).performAll ops).2.maxDepth = maxDepth :=
    maxDepth_performAll _ ops
  exact {
    run := ⟨m, hrun, hshows⟩
    synced := hshows.synced
    once := hshows.synced.nodup_ordinals
    size_le := by
      rw [hshows.size]
      exact hrun.size_le (Nat.zero_le _)
    drain := by
      refine ⟨_, performAll_dequeue _, ?_⟩
      rw [perform, Queue.drain, hdepth]
      rfl
    conserved := hnew.items_performAll ops }

end Queue

end Turnstile
