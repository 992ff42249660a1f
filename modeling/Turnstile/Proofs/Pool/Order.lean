import Mathlib.Data.List.Sort
import Turnstile.Proofs.Pool.Balance

/-!
# The order of service

Those who wait are served by class, and within a class by arrival. The queue keeps its entries in
this order, an entry taken out is the first of it, and so the promotion loop takes the requests out
in the order they stand in. In a balanced pool a slot given back is the only free one, and then the
loop takes out one request at most.
-/

namespace Turnstile

namespace Rank

variable {a b : Rank}

/-- The class of `a` is higher than that of `b`, or it is the same and `a` arrived earlier. -/
def Precedes (a b : Rank) : Prop :=
  b.qos.rank < a.qos.rank ∨ a.qos = b.qos ∧ a.ordinal < b.ordinal

theorem order_eq_lt_iff : order a b = .lt ↔ a.Precedes b := by
  obtain ⟨p, m⟩ := a
  obtain ⟨q, n⟩ := b
  cases p <;> cases q <;>
    simp [order, compareLex, compareOn, lateness, Qos.rank, Precedes, Ordering.then,
      Nat.compare_eq_lt]

instance : Std.Asymm Precedes where
  asymm a b h h' := by
    rcases h with h | ⟨hqos, h⟩ <;> rcases h' with h' | ⟨hqos', h'⟩
    · omega
    · rw [hqos'] at h
      omega
    · rw [hqos] at h'
      omega
    · omega

end Rank

/-! ## The queue -/

namespace Queue

variable {α : Type} {q q' : Queue α} {rank : Rank} {ordinal : Nat} {qos : Qos} {item : α}

theorem ordinals_eq (q : Queue α) : q.ordinals = q.entries.keys.map Rank.ordinal := by
  rw [ordinals, toList, ← Std.TreeMap.map_fst_toList_eq_keys, List.map_map]
  rfl

theorem precedes_toList (q : Queue α) :
    q.toList.Pairwise (Order.Preimage Prod.fst Rank.Precedes) :=
  Std.TreeMap.ordered_keys_toList.imp Rank.order_eq_lt_iff.mp

theorem precedes_keys (q : Queue α) : q.entries.keys.Pairwise Rank.Precedes :=
  Std.TreeMap.ordered_keys.imp Rank.order_eq_lt_iff.mp

theorem toList_dequeue? (h : q.dequeue? = some (rank, item, q')) :
    q.toList = (rank, item) :: q'.toList := by
  obtain ⟨-, hmin⟩ := minKey?_of_dequeue? h
  obtain ⟨-, hitem, rfl⟩ := dequeue?_eq_some h
  have hrest (entry : Rank × α) : entry ∈ (q.entries.erase rank).toList ↔
      rank ≠ entry.1 ∧ q.entries[entry.1]? = some entry.2 := by
    rw [Std.TreeMap.mem_toList_iff_getElem?_eq_some, Std.TreeMap.getElem?_erase]
    simp [Std.LawfulEqCmp.compare_eq_iff_eq]
  -- both lists are in the order of service, so it is enough that they have the same members
  refine (precedes_toList q).eq_of_mem_iff
    (List.pairwise_cons.mpr ⟨?first, precedes_toList _⟩) fun entry ↦ ?members
  case first =>
    intro entry hentry
    obtain ⟨hne, hsome⟩ := (hrest entry).mp hentry
    have hmem : entry.1 ∈ q.entries := Std.TreeMap.isSome_getElem?_iff_mem.mp (by rw [hsome]; rfl)
    have hle := hmin entry.1 hmem
    refine Rank.order_eq_lt_iff.mp ?_
    cases horder : Rank.order rank entry.1 with
    | lt => rfl
    | eq => exact absurd (Std.LawfulEqCmp.compare_eq_iff_eq.mp horder) hne
    | gt =>
      rw [horder] at hle
      cases hle
  case members =>
    rw [List.mem_cons, toList, toList, hrest, Std.TreeMap.mem_toList_iff_getElem?_eq_some]
    constructor
    · intro hentry
      by_cases heq : rank = entry.1
      · rw [← heq, hitem] at hentry
        exact .inl (Prod.ext heq.symm (Option.some.inj hentry).symm)
      · exact .inr ⟨heq, hentry⟩
    · rintro (rfl | ⟨-, hentry⟩)
      · exact hitem
      · exact hentry

theorem keys_dequeue? (h : q.dequeue? = some (rank, item, q')) :
    q.entries.keys = rank :: q'.entries.keys := by
  rw [← Std.TreeMap.map_fst_toList_eq_keys, ← Std.TreeMap.map_fst_toList_eq_keys]
  exact congrArg (List.map Prod.fst) (toList_dequeue? h)

theorem ordinals_dequeue? (h : q.dequeue? = some (rank, item, q')) :
    q.ordinals = rank.ordinal :: q'.ordinals := by
  rw [ordinals_eq, keys_dequeue? h, List.map_cons, ← ordinals_eq]

theorem Synced.mem_entries_reprioritize? (hq : q.Synced)
    (h : q.reprioritize? ordinal qos = some (item, q')) (rank : Rank) :
    rank ∈ q'.entries ↔ rank = ⟨qos, ordinal⟩ ∨ rank.ordinal ≠ ordinal ∧ rank ∈ q.entries := by
  rw [hq.reprioritize? h rank, index_reprioritize? h, hq rank]
  by_cases hordinal : ordinal = rank.ordinal
  · rw [if_pos hordinal, Option.some_inj, Rank.ext_iff]
    simp [hordinal, eq_comm]
  · rw [if_neg hordinal, Rank.ext_iff]
    simp [Ne.symm hordinal]

theorem toList_reprioritize? (h : q.reprioritize? ordinal qos = some (item, q')) :
    q'.toList.filter (·.1.ordinal ≠ ordinal) = q.toList.filter (·.1.ordinal ≠ ordinal) := by
  -- both lists are in the order of service, so it is enough that they have the same members
  refine ((precedes_toList q').filter _).eq_of_mem_iff ((precedes_toList q).filter _)
    fun entry ↦ ?_
  obtain ⟨old, -, -, rfl⟩ := reprioritize?_eq_some h
  simp only [toList, List.mem_filter, decide_eq_true_eq]
  refine and_congr_left fun hordinal ↦ ?_
  have unmoved (p : Qos) : Rank.order ⟨p, ordinal⟩ entry.1 ≠ .eq := fun heq ↦
    hordinal (congrArg Rank.ordinal (Std.LawfulEqCmp.compare_eq_iff_eq.mp heq)).symm
  rw [Std.TreeMap.mem_toList_iff_getElem?_eq_some, Std.TreeMap.mem_toList_iff_getElem?_eq_some,
    Std.TreeMap.getElem?_insert, if_neg (unmoved qos), Std.TreeMap.getElem?_erase,
    if_neg (unmoved old)]

theorem Synced.precedes_ordinals (hq : q.Synced) :
    q.ordinals.Pairwise fun m n ↦ ∀ {p p' : Qos}, q.index[m]? = some p → q.index[n]? = some p' →
      (⟨p, m⟩ : Rank).Precedes ⟨p', n⟩ := by
  have hindex {rank : Rank} (h : rank ∈ q.entries.keys) :
      q.index[rank.ordinal]? = some rank.qos := (hq rank).mp (Std.TreeMap.mem_keys.mp h)
  rw [ordinals_eq, List.pairwise_map]
  refine (precedes_keys q).imp_of_mem fun ha hb hprecedes p p' hp hp' ↦ ?_
  cases (hindex ha).symm.trans hp
  cases (hindex hb).symm.trans hp'
  exact hprecedes

end Queue

/-! ## The promotion loop -/

namespace Pool

variable {p : Pool}

theorem promote_ordinals (hsync : p.queue.Synced)
    (hopen : p.stopped = false → p.channelOpen = true) :
    p.promote.promoted ++ p.promote.pool.queue.ordinals = p.queue.ordinals := by
  fun_induction promote p with
  | case1 p h => rfl
  | case2 p h hq => rfl
  | case3 p h rank item queue hq p' hstart rest ih =>
    obtain ⟨-, rfl⟩ := startLive_eq_ok_iff.mp hstart
    have hrest := ih (hsync.dequeue? hq) hopen
    rw [Queue.ordinals_dequeue? hq]
    exact congrArg (rank.ordinal :: ·) hrest
  | case4 p h rank item queue hq reason hstart rest ih =>
    have hstopped : p.stopped = false := by
      simp only [Bool.or_eq_true, not_or] at h
      simpa using h.1
    simp [startLive, hopen hstopped] at hstart

namespace Balanced

/-- Whoever gets the slot given back stood first in the queue. -/
theorem release_ordinals (hb : p.Balanced) :
    p.release.promoted ++ p.release.pool.queue.ordinals = p.queue.ordinals :=
  promote_ordinals hb.synced fun hstopped ↦ by
    have hchannel := hb.channel
    simp only at hstopped
    rw [hchannel, hstopped]
    rfl

/-- A slot that is given back goes to one request at most: where anybody waits, no other is
free. -/
theorem promoted_length_le (hb : p.Balanced) : p.release.promoted.length ≤ 1 := by
  have hpromoted := hb.promoted_release
  have hsize := hpromoted.size
  have hlive := hb.live_le
  have hbounded := hpromoted.bounded (by simp only; omega)
  simp only at hsize hbounded
  by_cases hwaiting : 0 < p.queue.size
  · have hfull := (hb.conserving hwaiting).1
    omega
  · omega

theorem release_promoted (hb : p.Balanced) (hlive : 0 < p.live) {first : Nat} {rest : List Nat}
    (h : p.queue.ordinals = first :: rest) :
    p.release.promoted = [first] ∧ p.release.pool.queue.ordinals = rest := by
  have hordinals := hb.release_ordinals
  have hle := hb.promoted_length_le
  have hpromoted := hb.promoted_release
  have hsize := Queue.length_ordinals p.queue
  rw [h, List.length_cons] at hsize
  obtain ⟨hfull, hstopped⟩ := hb.conserving (by omega)
  have hcons := hpromoted.conserving hstopped
  have hsizes := hpromoted.size
  simp only at hcons hsizes
  rw [h] at hordinals
  match hlist : p.release.promoted with
  | [] =>
    rw [hlist, List.length_nil] at hcons hsizes
    omega
  | [n] =>
    rw [hlist] at hordinals
    cases hordinals
    exact ⟨rfl, rfl⟩
  | n :: m :: more =>
    rw [hlist] at hle
    simp at hle

end Balanced

end Pool

end Turnstile
