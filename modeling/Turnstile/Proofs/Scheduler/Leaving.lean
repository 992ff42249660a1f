import Turnstile.Proofs.Request.Refusal
import Turnstile.Proofs.Scheduler.Course

/-!
# Who leaves

A request leaves by being retired or by being refused. Each move lets at most one request leave and
the pool counts it once; a move with which nobody leaves retires and refuses nobody.
-/

namespace Turnstile

namespace Pool

/-- Count a request that leaves: it is retired or refused, once. -/
def discharge (p : Pool) (accepted : Bool) : Ending → Pool
  | .completed => p.retire true
  | .broken => p.retire false
  | .refused _ => p.refuse accepted

/-- Nobody is counted as having left; more may be accepted, and all of them stay. -/
structure KeepsAll (p p' : Pool) : Prop where
  /-- Nobody is retired in good order. -/
  completed : p'.completed = p.completed
  /-- Nobody is refused. -/
  rejected : p'.rejected = p.rejected
  /-- Of those accepted nobody leaves. -/
  outstanding : p'.outstanding + p.submitted = p.outstanding + p'.submitted

theorem KeepsAll.refl (p : Pool) : p.KeepsAll p := ⟨rfl, rfl, rfl⟩

variable {p p' : Pool} {rank : Rank} {admission : Admission} {placement : Placement}

theorem keepsAll_enroll (h : p.enroll rank admission = .ok (placement, p')) : p.KeepsAll p' := by
  obtain ⟨placed, hplaced, rfl⟩ := enroll_eq_ok h
  rw [place_frame hplaced]
  cases admission with
  | fresh => exact ⟨rfl, rfl, by simp only [accept]; omega⟩
  | resumed => exact ⟨rfl, rfl, rfl⟩

theorem keepsAll_reprioritize {ordinal : Nat} {qos : Qos}
    (h : p.reprioritize? ordinal qos = some p') : p.KeepsAll p' := by
  obtain ⟨found, -, rfl⟩ := Option.map_eq_some_iff.mp h
  exact ⟨rfl, rfl, rfl⟩

theorem keepsAll_release (hb : p.Balanced) : p.KeepsAll p.release.pool := by
  rw [(hb.promoted_release).frame]
  exact ⟨rfl, rfl, rfl⟩

theorem keepsAll_stop (p : Pool) : p.KeepsAll p.stop.2 := by
  rw [stop]
  split <;> exact ⟨rfl, rfl, rfl⟩

end Pool

namespace Scheduler

variable {σ : Type} {s s' : Scheduler σ} {m : Move σ} {n : Nat} {r r' : Request σ}

/-- Who leaves with a move. -/
inductive Leaving (s s' : Scheduler σ) : Prop where
  /-- One request leaves. It is counted once, among the outstanding if it had been accepted, and
  nothing else changes for anybody else. -/
  | one {n : Nat} {r r' : Request σ} {ending : Ending} (hr : s.requests[n]? = some r)
    (here : r.stage.isGone = false) (hr' : s'.requests[n]? = some r')
    (gone : r'.stage = .gone ending)
    (counted : r.stage.place.inside = true → 0 < s.pool.outstanding)
    (pool : s'.pool = s.pool.discharge r.stage.place.inside ending)
    (others : ∀ k, k ≠ n → s'.requests[k]? = s.requests[k]?)
  /-- Nobody leaves, and nobody is retired or refused. -/
  | nobody (pool : s.pool.KeepsAll s'.pool)
    (stages : ∀ {n : Nat} {r : Request σ}, s.requests[n]? = some r →
      ∃ r', s'.requests[n]? = some r' ∧ r'.stage.isGone = r.stage.isGone)

theorem Restaged.isGone (h : Restaged r r') : r'.stage.isGone = r.stage.isGone := by
  rcases h with rfl | ⟨hqueued, stage, hpass, rfl⟩
  · rfl
  · rw [hqueued] at hpass ⊢
    cases hpass <;> rfl

variable [Exchange σ]

theorem isGone_own {hooks : Hooks} {config : Config} {input : Request.Input}
    {told : List Happening} (h : Request.Own hooks config r input r' told) (hw : r.WellFormed) :
    r'.stage.isGone = r.stage.isGone := by
  cases hgone : r.stage with
  | gone ending =>
    obtain ⟨-, hsame, -⟩ := (Request.Step.own h).of_gone hgone
    rw [hsame, hgone]
  | _ =>
    cases hgone' : r'.stage with
    | gone ending => exact absurd (hgone.symm.trans (h.stage_of_gone hw hgone')) (by simp)
    | _ => rfl

/-- What a move of one request does to it and the pool: it leaves and is counted, or it does not
leave and nobody is counted. -/
theorem Shift.leaving {input : Request.Input} {told : List Happening} {p : Pool}
    {jobs draining : List Nat} (h : Shift s r input r' told p jobs draining) (hw : r.WellFormed) :
    (∃ ending, r'.stage = .gone ending ∧ r.stage.isGone = false ∧
        p = s.pool.discharge r.stage.place.inside ending) ∨
      r'.stage.isGone = r.stage.isGone ∧ s.pool.KeepsAll p := by
  cases h with
  | own h => exact .inr ⟨isGone_own h hw, .refl _⟩
  | passGate h => exact .inr ⟨by rw [h]; rfl, .refl _⟩
  | fail h => exact .inr ⟨by rw [h]; rfl, rfl, rfl, rfl⟩
  | @place admission pool h hp =>
    exact .inr ⟨by rw [h]; cases admission <;> rfl, Pool.keepsAll_enroll hp⟩
  | @queue admission pool h hp =>
    exact .inr ⟨by rw [h]; cases admission <;> rfl, Pool.keepsAll_enroll hp⟩
  | @decline admission reason h hp =>
    exact .inr ⟨by rw [h]; cases admission <;> rfl, .refl _⟩
  | pickUp h hj => exact .inr ⟨by rw [h]; rfl, .refl _⟩
  | finish h =>
    refine .inl ⟨_, rfl, by rw [h]; rfl, ?_⟩
    rw [Request.finish_of_open (hw.closed (by rw [h]; rfl))]
    cases (Exchange.complete r.exchange).1 <;> rfl
  | @refuse reason admitted h =>
    refine .inl ⟨_, rfl, by rw [h]; rfl, ?_⟩
    rw [h]
    cases admitted <;> rfl
  | drain h hd => exact .inl ⟨_, rfl, by rw [h]; rfl, by rw [h]; rfl⟩
  | rank h hp => exact .inr ⟨rfl, Pool.keepsAll_reprioritize hp⟩

theorem Change.leaving (hs : s.Sound) (hp : s.Placed) (h : Change s m s') : Leaving s s' := by
  cases h with
  | stay permits quiet => exact .nobody (.refl _) fun hr ↦ ⟨_, hr, rfl⟩
  | @arrive exchange program hm =>
    refine .nobody (.refl _) fun {n r} hr ↦ ⟨r, ?_, rfl⟩
    rw [Scheduler.arrive, Array.getElem?_push, if_neg (Nat.ne_of_lt (lt_size hr))]
    exact hr
  | @shift k r₀ r' told p jobs draining permits hk others h =>
    have hget (n : Nat) :=
      hs.numbered.getElem?_put (n := n) hk (h.step.kept (hs.wellFormed hk)).1
    rcases h.leaving (hs.wellFormed hk) with ⟨ending, hgone, hhere, hpool⟩ | ⟨hstage, hpool⟩
    · refine .one hk hhere ((hget k).trans (if_pos rfl)) hgone (hp.outstanding_pos hk) hpool
        fun n hn ↦ (hget n).trans (if_neg (Ne.symm hn))
    · refine .nobody hpool fun {n r} hr ↦ ?_
      by_cases hkn : k = n
      · subst hkn
        cases hk.symm.trans hr
        exact ⟨r', (hget k).trans (if_pos rfl), hstage⟩
      · exact ⟨r, (hget n).trans ((if_neg hkn).trans hr), rfl⟩
  | @release k r₀ exit hm hk h =>
    have hget (n : Nat) : (s.put { r₀ with stage := .departed exit }).requests[n]? =
        if k = n then some { r₀ with stage := .departed exit } else s.requests[n]? :=
      hs.numbered.getElem?_put hk rfl
    refine .nobody ?_ fun {n r} hr ↦ ?_
    · rw [release_eq hs.balanced, restageAll_pool]
      exact Pool.keepsAll_release hs.balanced
    · by_cases hkn : k = n
      · subst hkn
        cases hk.symm.trans hr
        obtain ⟨r', hr', hrestaged⟩ := restaged_release hs hk h ((hget k).trans (if_pos rfl))
        refine ⟨r', hr', hrestaged.isGone.trans ?_⟩
        rw [h]
        rfl
      · obtain ⟨r', hr', hrestaged⟩ :=
          restaged_release hs hk h ((hget n).trans ((if_neg hkn).trans hr))
        exact ⟨r', hr', hrestaged.isGone⟩
  | stop hm =>
    refine .nobody ?_ fun {n r} hr ↦ ?_
    · rw [stop_eq, restageAll_pool]
      exact Pool.keepsAll_stop s.pool
    · obtain ⟨r', hr', hrestaged⟩ := restaged_stop hs.numbered hr
      exact ⟨r', hr', hrestaged.isGone⟩

/-- Every move lets one request leave, which is counted once, or nobody. -/
theorem Reachable.leaving (h : s.Reachable) (m : Move σ) : Leaving s (s.perform m) :=
  (h.change m).leaving h.sound h.placed

end Scheduler

end Turnstile
