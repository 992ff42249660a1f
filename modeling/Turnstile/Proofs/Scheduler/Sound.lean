import Turnstile.Proofs.Pool.Balance
import Turnstile.Proofs.Request.Place
import Turnstile.Proofs.Scheduler.State

/-!
# Sound states

A scheduler is sound if requests are found under their ordinals and are well formed, and the pool
is in balance. Soundness speaks of each request and of the pool apart; which requests the pool
counts is in `Turnstile.Proofs.Scheduler.Places`.
-/

namespace Turnstile

namespace Scheduler

variable {σ : Type} {s s' : Scheduler σ} {n : Nat} {r : Request σ}

/-- Requests are found under their ordinals and are well formed, and the pool is in balance. -/
structure Sound (s : Scheduler σ) : Prop where
  /-- Requests are found under their ordinals. -/
  numbered : s.Numbered
  /-- Requests are well formed. -/
  wellFormed : ∀ {n : Nat} {r : Request σ}, s.requests[n]? = some r → r.WellFormed
  /-- The pool is in balance. -/
  balanced : s.pool.Balanced

/-- What concerns neither requests nor journal does not concern soundness but for the pool. -/
theorem Sound.congr (hs : s.Sound) (hrequests : s'.requests = s.requests)
    (hjournal : s'.journal = s.journal) (hb : s'.pool.Balanced) : s'.Sound where
  numbered := ⟨by rw [hrequests]; exact hs.numbered.ordinal,
    by rw [hrequests, hjournal]; exact hs.numbered.journal⟩
  wellFormed := by rw [hrequests]; exact hs.wellFormed
  balanced := hb

theorem Sound.put {r' : Request σ} (hs : s.Sound) (hr : s.requests[n]? = some r)
    (ho : r'.ordinal = r.ordinal) (hw : r'.WellFormed) : (s.put r').Sound where
  numbered := hs.numbered.put (by rw [ho, hs.numbered.ordinal hr]; exact lt_size hr)
  wellFormed {k r''} hk := by
    rw [put_getElem? (by rw [ho, hs.numbered.ordinal hr]; exact lt_size hr)] at hk
    split at hk
    · cases hk
      exact hw
    · exact hs.wellFormed hk
  balanced := hs.balanced

theorem Sound.absorb {r' : Request σ} {told : List Happening} (hs : s.Sound)
    (hr : s.requests[n]? = some r) (ho : r'.ordinal = r.ordinal) (hw : r'.WellFormed) :
    (s.absorb (r', told)).Sound where
  numbered := hs.numbered.absorb (by rw [ho, hs.numbered.ordinal hr]; exact lt_size hr)
  wellFormed := (hs.put hr ho hw).wellFormed
  balanced := hs.balanced

theorem Sound.depart {exit : Exit} (hs : s.Sound) (hr : s.requests[n]? = some r)
    (h : r.stage = .leaving exit) : (s.put { r with stage := .departed exit }).Sound := by
  have hpass : Request.Passes r.stage (.departed exit) := by
    rw [h]
    exact .left exit
  exact hs.put hr rfl ((hs.wellFormed hr).pass hpass)

theorem Sound.restageAll {change : Stage → Stage} (hs : s.Sound)
    (idem : ∀ stage, change (change stage) = change stage)
    (hchange : ∀ stage, change stage = stage ∨
      stage = .queued ∧ Request.Passes stage (change stage))
    (ordinals : List Nat) : (s.restageAll change ordinals).Sound where
  numbered := hs.numbered.restageAll ordinals
  wellFormed {k r} hk := by
    rw [restageAll_getElem? hs.numbered idem] at hk
    obtain ⟨r, hr, rfl⟩ := Option.map_eq_some_iff.mp hk
    split
    · rcases hchange r.stage with hsame | ⟨-, hpass⟩
      · rw [hsame]
        exact hs.wellFormed hr
      · exact (hs.wellFormed hr).pass hpass
    · exact hs.wellFormed hr
  balanced := by
    rw [restageAll_frame]
    exact hs.balanced

/-! ## Moves that concern several requests -/

/-- A promotion that bars nobody changes the stages of those who got a slot. -/
theorem settlePromotion_eq {p : Pool} {o : Pool.Promotion} (h : p.Promoted o) :
    s.settlePromotion o =
      { s with pool := o.pool, jobs := s.jobs ++ o.promoted }.restageAll Stage.promoted
        o.promoted := by
  rw [settlePromotion, h.nobodyBarred]
  rfl

theorem release_eq (hb : s.pool.Balanced) (r : Request σ) (exit : Exit) :
    s.release r exit =
      { s.put { r with stage := .departed exit } with
        pool := s.pool.release.pool
        jobs := s.jobs ++ s.pool.release.promoted }.restageAll Stage.promoted
          s.pool.release.promoted := settlePromotion_eq hb.promoted_release

theorem stop_eq (s : Scheduler σ) :
    s.stop =
      { s with
        pool := s.pool.stop.2
        draining := s.draining ++ s.pool.stop.1 }.restageAll Stage.dismissed s.pool.stop.1 := rfl

end Scheduler

end Turnstile
