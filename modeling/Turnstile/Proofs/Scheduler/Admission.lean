import Turnstile.Exchange.Scripted
import Turnstile.Proofs.Scheduler.Course

/-!
# Admission

What the settings promise of every run: no more requests hold a slot than there are workers, no
more hold a slot or wait than the cap allows, and no slot is free while a request waits. The pool
keeps these by its balance (`Pool.Balanced`); that the limits of the pool are those of the settings
is kept beside it.

A request that gets a slot at once looks at the queue nowhere. That it overtakes nobody is again
the balance: where a slot is free nobody waits.
-/

namespace Turnstile

theorem Pool.Step.limits {p p' : Pool} (h : Pool.Step p p') (hb : p.Balanced) :
    p'.workers = p.workers ∧ p'.maxInFlight = p.maxInFlight := by
  cases h with
  | enroll h =>
    rw [enroll_frame h]
    exact ⟨rfl, rfl⟩
  | release =>
    rw [hb.promoted_release.frame]
    exact ⟨rfl, rfl⟩
  | refuse admitted => exact ⟨rfl, rfl⟩
  | countFailure => exact ⟨rfl, rfl⟩
  | retire completed => exact ⟨rfl, rfl⟩
  | reprioritize h =>
    obtain ⟨_, -, rfl⟩ := Option.map_eq_some_iff.mp h
    exact ⟨rfl, rfl⟩
  | stop =>
    unfold Pool.stop
    split <;> exact ⟨rfl, rfl⟩

namespace Scheduler

variable {σ : Type} [Exchange σ] {s s' : Scheduler σ} {m : Move σ} {n : Nat} {r r' : Request σ}

theorem Reachable.limits (h : s.Reachable) :
    s.pool.workers = s.config.workerCount ∧ s.pool.maxInFlight = s.config.maxInFlight := by
  induction h with
  | start valid hooks => exact ⟨rfl, rfl⟩
  | @move s h m ih =>
    have hb := h.sound.balanced
    have hchange := h.change m
    rw [(hchange.frame hb).1]
    rcases hchange.pool hb with hsame | hstep
    · rw [hsame]
      exact ih
    · have hlimits := hstep.limits hb
      exact ⟨hlimits.1.trans ih.1, hlimits.2.trans ih.2⟩

/-! ## Getting a slot at once -/

/-- The request asks for a slot. -/
def Asks (r : Request σ) : Prop := ∃ admission : Admission, r.stage = admission.stage

omit [Exchange σ] in
theorem Asks.not_ready (h : Asks r) : r.stage ≠ .ready := by
  obtain ⟨admission, h⟩ := h
  rw [h]
  cases admission <;> simp [Admission.stage]

omit [Exchange σ] in
/-- Changing the stages of those who wait does not make a request ready that asks for a slot. -/
theorem Asks.not_restaged (h : Asks r) (hrestaged : Restaged r r') : r'.stage ≠ .ready := by
  rcases hrestaged with rfl | ⟨hqueued, -⟩
  · exact h.not_ready
  · obtain ⟨admission, h⟩ := h
    rw [h] at hqueued
    cases admission <;> cases hqueued

theorem Shift.nobodyWaits {input : Request.Input} {told : List Happening} {p : Pool}
    {jobs draining : List Nat} (hs : s.Sound) (hr : s.requests[n]? = some r)
    (h : Shift s r input r' told p jobs draining) (hasks : Asks r) (hready : r'.stage = .ready) :
    s.pool.queue.size = 0 := by
  cases h with
  | own h =>
    obtain ⟨admission, hstage⟩ := hasks
    have hplace := (h.kept (hs.wellFormed hr)).place
    rw [hready, hstage] at hplace
    cases admission <;> cases hplace
  | place h hp =>
    obtain ⟨placed, hplaced, -⟩ := Pool.enroll_eq_ok hp
    exact hs.balanced.size_eq_zero_of_live_lt (Pool.place_eq_live hplaced).2.1
  | rank h hp => exact absurd hready hasks.not_ready
  | _ => cases hready

/-- A request that asked for a slot and stands ready after a move of anybody found nobody
waiting. -/
theorem Change.nobodyWaits (hs : s.Sound) (h : Change s m s') (hr : s.requests[n]? = some r)
    (hasks : Asks r) (hr' : s'.requests[n]? = some r') (hready : r'.stage = .ready) :
    s.pool.queue.size = 0 := by
  -- a request that asks for a slot is not ready, so one that is ready afterwards has moved
  have unmoved (hsame : s'.requests[n]? = s.requests[n]?) : False := by
    rw [hsame, hr] at hr'
    cases hr'
    exact hasks.not_ready hready
  cases h with
  | stay permits quiet => exact (unmoved rfl).elim
  | arrive hm =>
    refine (unmoved ?_).elim
    rw [Scheduler.arrive, Array.getElem?_push, if_neg (Nat.ne_of_lt (lt_size hr))]
  | @shift k r₀ r₁ told p jobs draining permits hk others h =>
    have hordinal : r₁.ordinal = k :=
      (h.step.kept (hs.wellFormed hk)).1.trans (hs.numbered.ordinal hk)
    have hget := put_getElem? (s := s) (n := n) (r := r₁) (hordinal ▸ lt_size hk)
    by_cases hkn : k = n
    · subst hkn
      rw [hr] at hk
      cases hk
      cases hr'.symm.trans (hget.trans (if_pos hordinal))
      exact h.nobodyWaits hs hr hasks hready
    · exact (unmoved (hget.trans (if_neg (hordinal ▸ hkn)))).elim
  | @release k r₀ exit hm hk h =>
    have hordinal : r₀.ordinal = k := hs.numbered.ordinal hk
    -- whoever gives a slot back does not ask for one
    have hkn : k ≠ n := by
      rintro rfl
      rw [hr] at hk
      cases hk
      obtain ⟨admission, hstage⟩ := hasks
      rw [h] at hstage
      cases admission <;> cases hstage
    have hget : (s.put { r₀ with stage := .departed exit }).requests[n]? = some r := by
      rw [put_getElem? (by exact hordinal ▸ lt_size hk)]
      exact (if_neg (by rw [hordinal]; exact hkn)).trans hr
    obtain ⟨r₁, hr₁, hrestaged⟩ := restaged_release hs hk h hget
    cases hr'.symm.trans hr₁
    exact absurd hready (hasks.not_restaged hrestaged)
  | stop hm =>
    obtain ⟨r₁, hr₁, hrestaged⟩ := restaged_stop hs.numbered hr
    cases hr'.symm.trans hr₁
    exact absurd hready (hasks.not_restaged hrestaged)

/-! ## The limits after every run -/

/-- After every run from settings that break no rule: the slots taken are at most the workers,
those on a slot and those waiting are at most the cap, while anybody waits every slot is taken and
the scheduler is not stopped, and whoever asks for a slot and gets one at once overtakes nobody. -/
theorem performAll_admission {config : Config} {hooks : Hooks} (h : start? config hooks = .ok s)
    (moves : List (Move σ)) :
    (s.performAll moves).pool.live ≤ config.workerCount ∧
      (s.performAll moves).pool.live + (s.performAll moves).pool.queue.size ≤
        config.maxInFlight ∧
      (0 < (s.performAll moves).pool.queue.size →
        (s.performAll moves).pool.live = config.workerCount ∧
          (s.performAll moves).pool.stopped = false) ∧
      ∀ (m : Move σ) (n : Nat) (r r' : Request σ),
        (s.performAll moves).requests[n]? = some r →
        r.stage = .arriving ∨ r.stage = .returning →
        ((s.performAll moves).perform m).requests[n]? = some r' → r'.stage = .ready →
        (s.performAll moves).pool.queue.size = 0 := by
  have hstart := reachable_of_start? h
  obtain ⟨-, rfl⟩ := start?_eq_ok h
  have hreachable := hstart.performAll moves
  have hbalanced := hreachable.sound.balanced
  obtain ⟨hworkers, hcap⟩ := hreachable.limits
  have hconfig := (hstart.frame_performAll moves).1
  rw [hconfig] at hworkers hcap
  refine ⟨?live, ?cap, ?conserving, ?direct⟩
  case live => exact hworkers ▸ hbalanced.live_le
  case cap => exact hcap ▸ hbalanced.active_le
  case conserving =>
    intro hwaiting
    obtain ⟨hlive, hrunning⟩ := hbalanced.conserving hwaiting
    exact ⟨hlive.trans hworkers, hrunning⟩
  case direct =>
    intro m n r r' hr hstage hr' hready
    have hasks : Asks r := by
      rcases hstage with hstage | hstage
      · exact ⟨.fresh, hstage⟩
      · exact ⟨.resumed, hstage⟩
    exact (hreachable.change m).nobodyWaits hreachable.sound hr hasks hr' hready

/-- A scheduler with one worker. -/
def oneWorker : Scheduler Scripted := new (.sized 1) (.plain .normal)

/-- Two requests arrive and ask for a slot. -/
def twoArrivals : List (Move Scripted) :=
  [.arrive (.new default) (.pure .unit), .advance 0, .arrive (.new default) (.pure .unit),
    .advance 1]

/-- With one worker the second of two requests waits, and the slot is taken. -/
theorem performAll_admission_twoArrivals :
    start? (.sized 1) (.plain .normal) = .ok oneWorker ∧
      0 < (oneWorker.performAll twoArrivals).pool.queue.size ∧
      (oneWorker.performAll twoArrivals).pool.live = 1 ∧
      (oneWorker.performAll twoArrivals).pool.stopped = false := by
  have hstart : start? (.sized 1) (.plain .normal) = .ok oneWorker := rfl
  obtain ⟨-, -, hconserving, -⟩ := performAll_admission hstart twoArrivals
  have hwaiting : 0 < (oneWorker.performAll twoArrivals).pool.queue.size := by decide
  exact ⟨hstart, hwaiting, hconserving hwaiting⟩

end Scheduler

end Turnstile
