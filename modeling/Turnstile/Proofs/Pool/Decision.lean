import Turnstile.Proofs.Pool.Balance

/-!
# The decision of the pool

`Pool.place` decides by nested tests: the branch that gives a slot looks at the cap nowhere, and in
the branch that queues the queue may decline as well. For a request that does not wait already, in
a pool in balance, all of this is one condition, `Pool.objection?`: a slot is free only below the
cap, the queue has room for all that the cap allows, and it knows nobody by this ordinal.
-/

namespace Turnstile

namespace Pool

variable {p : Pool} {rank : Rank} {reason : Refusal}

/-- What stands against a request that asks for a slot. -/
def objection? (p : Pool) : Option Refusal :=
  if p.stopped then some .shutdown
  else if p.active < p.maxInFlight then none
  else some (.capacityExceeded p.maxInFlight)

theorem objection?_eq_none_iff :
    p.objection? = none ↔ p.stopped = false ∧ p.active < p.maxInFlight := by
  unfold objection?
  split
  next h => simp [h]
  next h => split <;> simp [*]

/-- A pool in balance is never over the cap, so what is not below the cap is at it. -/
theorem Balanced.objection?_eq_some_iff (hb : p.Balanced) :
    p.objection? = some reason ↔
      reason = .shutdown ∧ p.stopped = true ∨
        reason = .capacityExceeded p.maxInFlight ∧ p.stopped = false ∧
          p.active = p.maxInFlight := by
  have hle := hb.active_le
  unfold objection?
  split
  next h => simp [h, eq_comm]
  next h =>
    split
    next hlt => simp [h, Nat.ne_of_lt hlt]
    next hlt => simp [h, Nat.le_antisymm hle (Nat.le_of_not_lt hlt), eq_comm]

namespace Balanced

theorem exists_enqueue (hb : p.Balanced) (hnew : p.queue.index[rank.ordinal]? = none)
    (hroom : p.active < p.maxInFlight) : ∃ queue, p.queue.enqueue rank () = .ok queue := by
  have hdepth := hb.maxDepth
  simp only [active] at hroom
  unfold Queue.enqueue
  rw [if_neg (by omega), if_neg (by
    rw [Queue.contains, Std.TreeMap.contains_eq_isSome_getElem?, hnew]
    simp)]
  exact ⟨_, rfl⟩

theorem startLive_of_running (hb : p.Balanced) (hrunning : p.stopped = false) :
    p.startLive = .ok { p with live := p.live + 1 } :=
  startLive_eq_ok_iff.mpr ⟨by rw [hb.channel, hrunning]; rfl, rfl⟩

theorem enroll_of_free (hb : p.Balanced) (hrunning : p.stopped = false) (hfree : p.live < p.workers)
    (rank : Rank) (admission : Admission) : ∃ p', p.enroll rank admission = .ok (.live, p') := by
  unfold Pool.enroll Pool.place
  rw [if_neg (by simp [hrunning]), if_pos hfree, hb.startLive_of_running hrunning]
  exact ⟨_, rfl⟩

/-- The nested tests come to one. -/
theorem place_cases (hb : p.Balanced) (hnew : p.queue.index[rank.ordinal]? = none) :
    p.objection? = none ∧ (∃ placement p', p.place rank = .ok (placement, p')) ∨
      ∃ reason, p.objection? = some reason ∧ p.place rank = .error reason := by
  unfold Pool.place
  split
  next hstopped => exact .inr ⟨_, if_pos hstopped, rfl⟩
  next hstopped =>
    have hrunning : p.stopped = false := by simpa using hstopped
    split
    next hfree =>
      -- with a slot free nobody waits, and the slots alone are below the cap
      have hempty := hb.size_eq_zero_of_live_lt hfree
      have hcap := hb.workers_le
      rw [hb.startLive_of_running hrunning]
      exact .inl ⟨objection?_eq_none_iff.mpr ⟨hrunning, by simp only [active]; omega⟩, _, _, rfl⟩
    · split
      next hfull =>
        refine .inr ⟨_, ?_, rfl⟩
        rw [objection?, if_neg hstopped, if_neg (Nat.not_lt_of_le hfull)]
      next hroom =>
        obtain ⟨queue, hqueue⟩ := hb.exists_enqueue hnew (Nat.lt_of_not_le hroom)
        rw [hqueue]
        exact .inl ⟨objection?_eq_none_iff.mpr ⟨hrunning, Nat.lt_of_not_le hroom⟩, _, _, rfl⟩

theorem enroll_eq_error_iff (hb : p.Balanced) (admission : Admission)
    (hnew : p.queue.index[rank.ordinal]? = none) :
    p.enroll rank admission = .error reason ↔ p.objection? = some reason := by
  unfold Pool.enroll
  rcases hb.place_cases hnew with ⟨hnone, placement, placed, hplaced⟩ | ⟨other, hsome, hplaced⟩
  · simp [hnone, hplaced]
  · simp [hsome, hplaced]

/-- A request finds a place exactly if nothing stands against it. -/
theorem exists_enroll_iff (hb : p.Balanced) (admission : Admission)
    (hnew : p.queue.index[rank.ordinal]? = none) :
    (∃ placement p', p.enroll rank admission = .ok (placement, p')) ↔ p.objection? = none := by
  unfold Pool.enroll
  rcases hb.place_cases hnew with ⟨hnone, placement, placed, hplaced⟩ | ⟨other, hsome, hplaced⟩
  · simp [hnone, hplaced]
  · simp [hsome, hplaced]

end Balanced

end Pool

end Turnstile
