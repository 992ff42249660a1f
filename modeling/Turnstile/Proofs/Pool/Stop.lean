import Turnstile.Proofs.Pool.Balance

/-!
# Stopped pools

Once a pool is stopped it stays so. It gives no slot to anybody, whether to one that asks for it or
to one that waits, nobody waits in it, and stopping it again does nothing.
-/

namespace Turnstile

namespace Pool

variable {p p' : Pool}

theorem enroll_of_stopped (h : p.stopped = true) (rank : Rank) (admission : Admission) :
    p.enroll rank admission = .error .shutdown := by
  rw [enroll, place, if_pos h]

theorem promote_of_stopped (h : p.stopped = true) : p.promote = ⟨[], [], p⟩ := by
  rw [promote, if_pos (by simp [h])]

theorem release_of_stopped (h : p.stopped = true) :
    p.release = ⟨[], [], { p with live := p.live - 1 }⟩ := promote_of_stopped h

theorem stop_of_stopped (h : p.stopped = true) : p.stop = ([], p) := if_pos h

theorem stop_of_running (h : p.stopped = false) :
    p.stop = (p.queue.ordinals,
      { p with stopped := true, channelOpen := false, queue := p.queue.drain.2 }) :=
  if_neg (by simp [h])

theorem Balanced.size_of_stopped (hb : p.Balanced) (h : p.stopped = true) : p.queue.size = 0 := by
  by_contra hsize
  have hrunning := (hb.conserving (Nat.pos_of_ne_zero hsize)).2
  rw [h] at hrunning
  cases hrunning

/-- A stopped pool stays stopped, and the slots taken in it become fewer only. -/
theorem Step.of_stopped (h : Step p p') (hstopped : p.stopped = true) :
    p'.stopped = true ∧ p'.live ≤ p.live := by
  cases h with
  | enroll h =>
    rw [enroll_of_stopped hstopped] at h
    cases h
  | release =>
    rw [release_of_stopped hstopped]
    exact ⟨hstopped, Nat.sub_le _ _⟩
  | refuse => exact ⟨hstopped, Nat.le_refl _⟩
  | countFailure => exact ⟨hstopped, Nat.le_refl _⟩
  | retire => exact ⟨hstopped, Nat.le_refl _⟩
  | reprioritize h =>
    obtain ⟨taken, -, rfl⟩ := Option.map_eq_some_iff.mp h
    exact ⟨hstopped, Nat.le_refl _⟩
  | stop =>
    rw [stop_of_stopped hstopped]
    exact ⟨hstopped, Nat.le_refl _⟩

end Pool

end Turnstile
