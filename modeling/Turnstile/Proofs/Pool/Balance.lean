import Turnstile.Pool
import Turnstile.Proofs.Queue.Index

/-!
# The balance of the pool

A pool is in balance if no slot is free while a request waits, and nobody waits once the pool is
stopped. The cap on slots and waiting requests rests on this alone: a request that is placed in a
free slot finds the queue empty, so only the queue branch of `Pool.place` has to look at the cap.

## The promotion loop

`Pool.promote` takes requests out of the queue until no slot is free or nobody waits. `Promoted`
says all that callers need to know of it, so that nothing else opens the recursion. With the way to
the workers open every request taken out gets its slot; nobody is barred.
-/

namespace Turnstile

namespace Pool

variable {p p' : Pool} {rank : Rank} {admission : Admission} {placement : Placement}
  {refusal : Refusal}

/-! ## Placing a request -/

@[simp] theorem startLive_eq_ok_iff :
    p.startLive = .ok p' ↔ p.channelOpen = true ∧ { p with live := p.live + 1 } = p' := by
  unfold startLive
  split <;> simp_all

theorem place_eq_live (h : p.place rank = .ok (.live, p')) :
    p.stopped = false ∧ p.live < p.workers ∧ p' = { p with live := p.live + 1 } := by
  unfold place at h
  split at h
  · cases h
  next hstopped =>
    split at h
    next hfree =>
      split at h <;> cases h
      next hstart => exact ⟨by simpa using hstopped, hfree, (startLive_eq_ok_iff.mp hstart).2.symm⟩
    · split at h
      · cases h
      · split at h <;> cases h

theorem place_eq_queued (h : p.place rank = .ok (.queued, p')) :
    p.stopped = false ∧ p.workers ≤ p.live ∧ p.active < p.maxInFlight ∧
      ∃ queue, p.queue.enqueue rank () = .ok queue ∧ p' = { p with queue } := by
  unfold place at h
  split at h
  · cases h
  next hstopped =>
    split at h
    · split at h <;> cases h
    next hfree =>
      split at h
      · cases h
      next hcap =>
        split at h <;> cases h
        next queue hqueue =>
          exact ⟨by simpa using hstopped, by omega, by omega, queue, hqueue, rfl⟩

theorem place_frame (h : p.place rank = .ok (placement, p')) :
    p' = { p with queue := p'.queue, live := p'.live } := by
  cases placement with
  | live =>
    obtain ⟨-, -, rfl⟩ := place_eq_live h
    rfl
  | queued =>
    obtain ⟨-, -, -, queue, -, rfl⟩ := place_eq_queued h
    rfl

theorem enroll_eq_ok (h : p.enroll rank admission = .ok (placement, p')) :
    ∃ placed, p.place rank = .ok (placement, placed) ∧ p' = placed.accept admission := by
  unfold enroll at h
  split at h <;> cases h
  next placed hplaced => exact ⟨placed, hplaced, rfl⟩

/-- To accept a request changes the queue, the number of slots taken and the counters of those
accepted, and nothing else. -/
theorem enroll_frame (h : p.enroll rank admission = .ok (placement, p')) :
    p' = { p with
      queue := p'.queue, live := p'.live
      outstanding := p'.outstanding, submitted := p'.submitted } := by
  obtain ⟨placed, hplaced, rfl⟩ := enroll_eq_ok h
  rw [place_frame hplaced]
  cases admission <;> rfl

/-! ## The promotion loop -/

/-- What the promotion loop makes of a pool. -/
structure Promoted (p : Pool) (o : Promotion) : Prop where
  /-- Only the queue and the number of slots taken change. -/
  frame : o.pool = { p with queue := o.pool.queue, live := p.live + o.promoted.length }
  /-- Whoever is taken out of the queue gets a slot. -/
  nobodyBarred : o.barred = []
  /-- The queue stays in step with its index. -/
  synced : o.pool.queue.Synced
  /-- The room of the queue stays what it was. -/
  maxDepth : o.pool.queue.maxDepth = p.queue.maxDepth
  /-- Nobody is lost from the queue. -/
  size : o.pool.queue.size + o.promoted.length = p.queue.size
  /-- Nobody gets two slots. -/
  nodup : o.promoted.Nodup
  /-- Whoever got a slot had waited. -/
  waited : ∀ n ∈ o.promoted, ∃ qos, p.queue.index[n]? = some qos
  /-- The others wait where they waited. -/
  index : ∀ n, o.pool.queue.index[n]? = if n ∈ o.promoted then none else p.queue.index[n]?
  /-- No slot is left free while a request waits. -/
  conserving : p.stopped = false → o.pool.queue.size = 0 ∨ p.workers ≤ p.live + o.promoted.length
  /-- No more slots are given than there are. -/
  bounded : p.live ≤ p.workers → p.live + o.promoted.length ≤ p.workers

theorem Promoted.stay (hsync : p.queue.Synced)
    (h : p.stopped = false → p.queue.size = 0 ∨ p.workers ≤ p.live) :
    Promoted p ⟨[], [], p⟩ where
  frame := rfl
  nobodyBarred := rfl
  synced := hsync
  maxDepth := rfl
  size := rfl
  nodup := .nil
  waited := by simp
  index := by simp
  conserving := h
  bounded := id

theorem Promoted.cons {queue : Queue Unit} {o : Promotion} (hsync : p.queue.Synced)
    (hfree : p.live < p.workers) (hq : p.queue.dequeue? = some (rank, (), queue))
    (h : Promoted { p with queue, live := p.live + 1 } o) :
    Promoted p { o with promoted := rank.ordinal :: o.promoted } where
  frame := by
    rw [List.length_cons, h.frame]
    simp only [Pool.mk.injEq, true_and, and_true]
    omega
  nobodyBarred := h.nobodyBarred
  synced := h.synced
  maxDepth := by
    rw [h.maxDepth]
    obtain ⟨-, -, rfl⟩ := Queue.dequeue?_eq_some hq
    rfl
  size := by
    have hsize := h.size
    rw [Queue.size_dequeue? hq, ← hsize, List.length_cons, Nat.add_assoc]
  nodup := by
    refine List.nodup_cons.mpr ⟨fun hmem ↦ ?_, h.nodup⟩
    -- whoever was taken out first is not in the queue that the rest comes from
    obtain ⟨qos, hqos⟩ := h.waited _ hmem
    rw [Queue.index_dequeue? hq, if_pos rfl] at hqos
    cases hqos
  waited := by
    intro n hn
    rcases List.mem_cons.mp hn with rfl | hn
    · exact ⟨rank.qos, hsync.index_of_dequeue? hq⟩
    · obtain ⟨qos, hqos⟩ := h.waited n hn
      rw [Queue.index_dequeue? hq] at hqos
      split at hqos
      · cases hqos
      · exact ⟨qos, hqos⟩
  index := by
    intro n
    rw [h.index, Queue.index_dequeue? hq]
    by_cases hr : n = rank.ordinal
    · simp [hr]
    · simp [hr, Ne.symm hr]
  conserving := by
    intro hstopped
    have hcons := h.conserving hstopped
    rw [List.length_cons]
    rcases hcons with hcons | hcons
    · exact Or.inl hcons
    · right
      simp only at hcons
      omega
  bounded := by
    intro hle
    have hb := h.bounded (by simp only; omega)
    rw [List.length_cons]
    simp only at hb
    omega

/-- What the promotion loop does while the way to the workers is open, unless the pool is
stopped. -/
theorem promoted_promote (hsync : p.queue.Synced)
    (hopen : p.stopped = false → p.channelOpen = true) : Promoted p p.promote := by
  fun_induction promote p with
  | case1 p h =>
    refine .stay hsync fun hstopped ↦ Or.inr ?_
    simpa [hstopped] using h
  | case2 p h hq => exact .stay hsync fun _ ↦ Or.inl (Queue.dequeue?_eq_none_iff.mp hq)
  | case3 p h rank item queue hq p' hstart rest ih =>
    obtain ⟨-, rfl⟩ := startLive_eq_ok_iff.mp hstart
    have hfree : p.live < p.workers := by
      simp only [Bool.or_eq_true, decide_eq_true_eq, not_or, Nat.not_le] at h
      exact h.2
    exact .cons hsync hfree hq (ih (hsync.dequeue? hq) hopen)
  | case4 p h rank item queue hq reason hstart rest ih =>
    have hstopped : p.stopped = false := by
      simp only [Bool.or_eq_true, not_or] at h
      simpa using h.1
    -- barring needs a closed way to the workers, and the way is open until the stop
    simp [startLive, hopen hstopped] at hstart

/-! ## The balance -/

/-- No slot is free while a request waits, nobody waits once the pool is stopped, and nobody is
over the cap. -/
structure Balanced (p : Pool) : Prop where
  /-- The cap leaves room for all slots. -/
  workers_le : p.workers ≤ p.maxInFlight
  /-- No more slots are taken than there are. -/
  live_le : p.live ≤ p.workers
  /-- No more requests than allowed hold a slot or wait for one. -/
  active_le : p.active ≤ p.maxInFlight
  /-- While a request waits, all slots are taken and the pool is not stopped. -/
  conserving : 0 < p.queue.size → p.live = p.workers ∧ p.stopped = false
  /-- The way to the workers is open until the pool is stopped. -/
  channel : p.channelOpen = !p.stopped
  /-- The queue is in step with its index. -/
  synced : p.queue.Synced
  /-- The queue has room for all that are allowed. -/
  maxDepth : p.queue.maxDepth = p.maxInFlight

theorem balanced_empty {workers maxInFlight : Nat} (h : workers ≤ maxInFlight) :
    (empty workers maxInFlight).Balanced where
  workers_le := h
  live_le := Nat.zero_le _
  active_le := Nat.zero_le _
  conserving := by simp [empty]
  channel := rfl
  synced := Queue.synced_empty _
  maxDepth := rfl

/-- A change of the pool by one of its operations. -/
inductive Step (p : Pool) : Pool → Prop where
  /-- A request finds a place. -/
  | enroll {rank : Rank} {admission : Admission} {placement : Placement} {p' : Pool}
      (h : p.enroll rank admission = .ok (placement, p')) : Step p p'
  /-- A slot is given back. -/
  | release : Step p p.release.pool
  /-- A request was refused. -/
  | refuse (admitted : Bool) : Step p (p.refuse admitted)
  /-- A request failed. -/
  | countFailure : Step p p.countFailure
  /-- A request left. -/
  | retire (completed : Bool) : Step p (p.retire completed)
  /-- A waiting request moves to another class. -/
  | reprioritize {ordinal : Nat} {qos : Qos} {p' : Pool}
      (h : p.reprioritize? ordinal qos = some p') : Step p p'
  /-- The pool is stopped. -/
  | stop : Step p p.stop.2

namespace Balanced

/-- A request that finds a free slot finds nobody waiting. -/
theorem size_eq_zero_of_live_lt (hb : p.Balanced) (h : p.live < p.workers) : p.queue.size = 0 := by
  by_contra hne
  have := (hb.conserving (Nat.pos_of_ne_zero hne)).1
  omega

theorem place (hb : p.Balanced) (h : p.place rank = .ok (placement, p')) : p'.Balanced := by
  have hcap := hb.workers_le
  cases placement with
  | live =>
    obtain ⟨hstopped, hfree, rfl⟩ := place_eq_live h
    -- the live branch never looks at the cap: with nobody waiting, the slots alone are below it
    have hempty := hb.size_eq_zero_of_live_lt hfree
    refine { hb with
      live_le := by simp only; omega
      active_le := by simp only [active]; omega
      conserving := by simp only; omega }
  | queued =>
    obtain ⟨hstopped, hfull, hroom, queue, hq, rfl⟩ := place_eq_queued h
    have hsize := Queue.size_enqueue hb.synced hq
    have hlive := hb.live_le
    have hdepth := hb.maxDepth
    simp only [active] at hroom
    exact {
      workers_le := hb.workers_le
      live_le := hb.live_le
      active_le := by simp only [active]; omega
      conserving := fun _ ↦ ⟨by simp only; omega, hstopped⟩
      channel := hb.channel
      synced := hb.synced.enqueue hq
      maxDepth := by
        obtain ⟨-, -, rfl⟩ := Queue.enqueue_eq_ok hq
        exact hdepth }

theorem accept (hb : p.Balanced) (admission : Admission) : (p.accept admission).Balanced := by
  cases admission with
  | fresh => exact { hb with }
  | resumed => exact hb

theorem enroll (hb : p.Balanced) (h : p.enroll rank admission = .ok (placement, p')) :
    p'.Balanced := by
  obtain ⟨placed, hplaced, rfl⟩ := enroll_eq_ok h
  exact (hb.place hplaced).accept admission

theorem promoted_release (hb : p.Balanced) :
    Promoted { p with live := p.live - 1 } p.release :=
  promoted_promote hb.synced fun hstopped ↦ by
    have hchannel := hb.channel
    simp only at hstopped
    rw [hchannel, hstopped]
    rfl

theorem release (hb : p.Balanced) : p.release.pool.Balanced := by
  have hr := hb.promoted_release
  have hcap := hb.workers_le
  have hlive := hb.live_le
  have hactive := hb.active_le
  have hbounded := hr.bounded (by simp only; omega)
  have hsize := hr.size
  have hdepth := hr.maxDepth
  rw [hr.frame]
  simp only [active] at hbounded hsize hdepth hactive
  exact {
    workers_le := hcap
    live_le := by simp only; omega
    active_le := by simp only [active]; omega
    conserving := by
      intro hwaiting
      simp only at hwaiting ⊢
      -- somebody waits after the loop, so somebody waited before it
      obtain ⟨hfull, hstopped⟩ := hb.conserving (by omega)
      rcases hr.conserving hstopped with hcons | hcons
      · omega
      · simp only at hcons
        exact ⟨by omega, hstopped⟩
    channel := hb.channel
    synced := hr.synced
    maxDepth := hdepth.trans hb.maxDepth }

theorem reprioritize {ordinal : Nat} {qos : Qos} (hb : p.Balanced)
    (h : p.reprioritize? ordinal qos = some p') : p'.Balanced := by
  unfold reprioritize? at h
  obtain ⟨⟨item, queue⟩, hq, rfl⟩ := Option.map_eq_some_iff.mp h
  have hsize := Queue.size_reprioritize? hb.synced hq
  have hactive := hb.active_le
  exact { hb with
    active_le := by simp only [active, hsize] at hactive ⊢; exact hactive
    conserving := by simp only [hsize]; exact hb.conserving
    synced := hb.synced.reprioritize? hq
    maxDepth := by
      obtain ⟨-, -, -, rfl⟩ := Queue.reprioritize?_eq_some hq
      exact hb.maxDepth }

theorem stop (hb : p.Balanced) : p.stop.2.Balanced := by
  unfold Pool.stop
  split
  · exact hb
  · have hactive := hb.active_le
    exact { hb with
      active_le := by simp only [active, Queue.size_drain] at hactive ⊢; omega
      conserving := by simp
      channel := rfl
      synced := Queue.Synced.drain _ }

theorem step (hb : p.Balanced) (h : Step p p') : p'.Balanced := by
  cases h with
  | enroll h => exact hb.enroll h
  | release => exact hb.release
  | refuse => exact { hb with }
  | countFailure => exact { hb with }
  | retire => exact { hb with }
  | reprioritize h => exact hb.reprioritize h
  | stop => exact hb.stop

end Balanced

end Pool

end Turnstile
