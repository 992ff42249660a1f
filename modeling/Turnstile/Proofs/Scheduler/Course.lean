import Turnstile.Proofs.Scheduler.Invariant

/-!
# The course of one request

What a run of the scheduler is for one of its requests: a run of its own steps, in which the moves
of the others are steps where nothing happens to it, with its part of the journal as what the steps
told. So a property of one request in all runs of the scheduler is proved of `Request.Run`.
-/

namespace Turnstile

namespace Scheduler

variable {σ : Type} {s s' : Scheduler σ} {m : Move σ} {n : Nat} {r r' : Request σ}

@[simp] theorem restageAll_journal {change : Stage → Stage} {ordinals : List Nat} :
    (s.restageAll change ordinals).journal = s.journal := by
  rw [restageAll_frame]

theorem history_congr (h : s'.journal = s.journal) : s'.history n = s.history n := by
  rw [history, h, history]

/-- What becomes of a request when the stages of several that wait are changed. -/
def Restaged (r r' : Request σ) : Prop :=
  r' = r ∨ r.stage = .queued ∧ ∃ stage, Request.Passes r.stage stage ∧ r' = { r with stage }

theorem restaged_restageAll {change : Stage → Stage} (hs : s.Numbered)
    (idem : ∀ stage, change (change stage) = change stage)
    (hchange : ∀ stage, change stage = stage ∨
      stage = .queued ∧ Request.Passes stage (change stage))
    (ordinals : List Nat) (hr : s.requests[n]? = some r) :
    ∃ r', (s.restageAll change ordinals).requests[n]? = some r' ∧ Restaged r r' := by
  rw [restageAll_getElem? hs idem, hr, Option.map_some]
  refine ⟨_, rfl, ?_⟩
  split
  · rcases hchange r.stage with hsame | ⟨hqueued, hpass⟩
    · left
      rw [hsame]
    · exact .inr ⟨hqueued, _, hpass, rfl⟩
  · exact .inl rfl

theorem restaged_release {k : Nat} {r₀ : Request σ} {exit : Exit} (hs : s.Sound)
    (hk : s.requests[k]? = some r₀) (h : r₀.stage = .leaving exit)
    (hr : (s.put { r₀ with stage := .departed exit }).requests[n]? = some r) :
    ∃ r', (s.release r₀ exit).requests[n]? = some r' ∧ Restaged r r' := by
  have hnumbered := (hs.depart hk h).numbered
  rw [release_eq hs.balanced]
  refine restaged_restageAll ?_ Request.promoted_idem Request.promoted_passes _ hr
  exact ⟨hnumbered.ordinal, hnumbered.journal⟩

theorem restaged_stop (hs : s.Numbered) (hr : s.requests[n]? = some r) :
    ∃ r', s.stop.requests[n]? = some r' ∧ Restaged r r' := by
  rw [stop_eq]
  refine restaged_restageAll ?_ Request.dismissed_idem Request.dismissed_passes _ hr
  exact ⟨hs.ordinal, hs.journal⟩

variable [Exchange σ]

theorem Change.step (hs : s.Sound) (h : Change s m s') (hr : s.requests[n]? = some r) :
    ∃ r' told, s'.requests[n]? = some r' ∧ s'.history n = s.history n ++ told ∧
      Request.Step s.hooks s.config r (m.input n r) r' told := by
  cases h with
  | stay permits quiet =>
    refine ⟨r, [], hr, (List.append_nil _).symm, ?_⟩
    rcases quiet n r hr with hinput | ⟨qos, hinput⟩ <;> rw [hinput]
    · exact .stay
    · exact .keepRank qos
  | @arrive exchange program hm =>
    refine ⟨r, [], ?_, (List.append_nil _).symm, ?_⟩
    · rw [Scheduler.arrive, Array.getElem?_push, if_neg (Nat.ne_of_lt (lt_size hr))]
      exact hr
    · rw [hm]
      exact .stay
  | @shift k r₀ r' told p jobs draining permits hk others h =>
    have hordinal : r'.ordinal = k :=
      (h.step.kept (hs.wellFormed hk)).1.trans (hs.numbered.ordinal hk)
    have hlt : r'.ordinal < s.requests.size := hordinal ▸ lt_size hk
    -- the move is about this request, or it happens to another and this one stays
    by_cases hkn : k = n
    · subst hkn
      rw [hr] at hk
      cases hk
      refine ⟨r', told, (put_getElem? hlt).trans (if_pos hordinal), ?_, h.step⟩
      refine history_absorb.trans ?_
      rw [if_pos hordinal]
      rfl
    · have hne : r'.ordinal ≠ n := hordinal ▸ hkn
      refine ⟨r, [], (put_getElem? hlt).trans ((if_neg hne).trans hr), ?_, ?_⟩
      · refine history_absorb.trans ?_
        rw [if_neg hne]
        rfl
      · rw [others n r (Ne.symm hkn)]
        exact .stay
  | @release k r₀ exit hm hk h =>
    have hordinal : r₀.ordinal = k := hs.numbered.ordinal hk
    have hhistory : (s.release r₀ exit).history n = s.history n ++ [] := by
      rw [List.append_nil, release_eq hs.balanced]
      exact history_congr restageAll_journal
    have hget : (s.put { r₀ with stage := .departed exit }).requests[n]? =
        if k = n then some { r₀ with stage := .departed exit } else s.requests[n]? := by
      rw [put_getElem? (by exact hordinal ▸ lt_size hk)]
      exact congrArg (fun k ↦ if k = n then _ else _) hordinal
    by_cases hkn : k = n
    · subst hkn
      rw [hr] at hk
      cases hk
      obtain ⟨r', hr', hrestaged⟩ := restaged_release hs hr h (hget.trans (if_pos rfl))
      refine ⟨r', [], hr', hhistory, ?_⟩
      rw [hm, input_advance_self, nextInput_eq_nothing (by simp [h])]
      rcases hrestaged with rfl | ⟨hqueued, -⟩
      · exact .pass (by rw [h]; exact .left exit)
      · cases hqueued
    · obtain ⟨r', hr', hrestaged⟩ := restaged_release hs hk h (hget.trans ((if_neg hkn).trans hr))
      refine ⟨r', [], hr', hhistory, ?_⟩
      rw [hm, input_advance_other r (Ne.symm hkn)]
      rcases hrestaged with rfl | ⟨-, stage, hstage, rfl⟩
      · exact .stay
      · exact .pass hstage
  | stop hm =>
    obtain ⟨r', hr', hrestaged⟩ := restaged_stop hs.numbered hr
    refine ⟨r', [], hr', ?_, ?_⟩
    · rw [List.append_nil, stop_eq]
      exact history_congr restageAll_journal
    · rw [hm]
      rcases hrestaged with rfl | ⟨-, stage, hstage, rfl⟩
      · exact .stay
      · exact .pass hstage

/-! ## Runs -/

theorem performAll_append (s : Scheduler σ) (moves more : List (Move σ)) :
    s.performAll (moves ++ more) = (s.performAll moves).performAll more :=
  List.foldl_append

theorem Reachable.performAll (h : s.Reachable) (moves : List (Move σ)) :
    (s.performAll moves).Reachable := by
  induction moves generalizing s with
  | nil => exact h
  | cons m moves ih => exact ih (h.move m)

theorem Reachable.frame_performAll (h : s.Reachable) (moves : List (Move σ)) :
    (s.performAll moves).config = s.config ∧ (s.performAll moves).hooks = s.hooks := by
  induction moves generalizing s with
  | nil => exact ⟨rfl, rfl⟩
  | cons m moves ih =>
    have hframe := (h.change m).frame h.sound.balanced
    have hrest := ih (h.move m)
    exact ⟨hrest.1.trans hframe.1, hrest.2.trans hframe.2⟩

omit [Exchange σ] in
theorem start?_eq_ok {config : Config} {hooks : Hooks} (h : start? config hooks = .ok s) :
    config.Valid ∧ s = new config hooks := by
  unfold start? Config.validate at h
  split at h
  next checked hchecked =>
    split at hchecked
    · cases hchecked
    next hnone =>
      cases hchecked
      cases h
      exact ⟨Config.defect?_eq_none_iff.mp hnone, rfl⟩
  · cases h

omit [Exchange σ] in
theorem start?_of_valid {config : Config} {hooks : Hooks} (h : config.Valid) :
    start? config hooks = .ok (new config hooks : Scheduler σ) := by
  unfold start? Config.validate
  rw [Config.defect?_eq_none_iff.mpr h]

theorem reachable_of_start? {config : Config} {hooks : Hooks} (h : start? config hooks = .ok s) :
    s.Reachable := by
  obtain ⟨valid, rfl⟩ := start?_eq_ok h
  exact .start valid hooks

/-- What the moves of a run bring from outside to the request with the ordinal `n`, from its
arrival on. -/
def inputs (n : Nat) : Scheduler σ → List (Move σ) → List Request.Input
  | _, [] => []
  | s, m :: moves =>
    match s.requests[n]? with
    | some r => m.input n r :: inputs n (s.perform m) moves
    | none => inputs n (s.perform m) moves

theorem Reachable.run_performAll (h : s.Reachable) (moves : List (Move σ))
    (hr : s.requests[n]? = some r) :
    ∃ r' told, (s.performAll moves).requests[n]? = some r' ∧
      (s.performAll moves).history n = s.history n ++ told ∧
      Request.Run s.hooks s.config r (inputs n s moves) r' told := by
  induction moves generalizing s r with
  | nil => exact ⟨r, [], hr, (List.append_nil _).symm, .start⟩
  | cons m moves ih =>
    obtain ⟨r₁, told₁, hr₁, hhistory₁, hstep⟩ := (h.change m).step h.sound hr
    obtain ⟨r₂, told₂, hr₂, hhistory₂, hrun⟩ := ih (h.move m) hr₁
    have hframe := (h.change m).frame h.sound.balanced
    rw [hframe.1, hframe.2] at hrun
    refine ⟨r₂, told₁ ++ told₂, hr₂, ?_, ?_⟩
    · rw [← List.append_assoc, ← hhistory₁]
      exact hhistory₂
    · rw [inputs, hr]
      exact hrun.cons hstep

theorem Reachable.arrival (h : s.Reachable) (exchange : σ) (program : Program) :
    (s.arrive exchange program).requests[s.requests.size]? =
        some (.new s.requests.size
          (s.hooks.classOf s.config.defaultQos s.requests.size (Exchange.metadata exchange))
          exchange program) ∧
      (s.arrive exchange program).history s.requests.size = [] := by
  refine ⟨?_, h.sound.numbered.history_size⟩
  rw [Scheduler.arrive, Array.getElem?_push, if_pos rfl]

/-- Requests come by arriving only. -/
theorem Change.arrived (hs : s.Sound) (h : Change s m s') (hn : s.requests.size ≤ n)
    (hr : s'.requests[n]? = some r) :
    n = s.requests.size ∧ ∃ exchange program, s' = s.arrive exchange program := by
  have hlt := lt_size hr
  cases h with
  | @arrive exchange program hm =>
    rw [Scheduler.arrive, Array.size_push] at hlt
    exact ⟨by omega, exchange, program, rfl⟩
  | stay permits quiet => exact absurd hlt (Nat.not_lt_of_le hn)
  | shift permits hk others h =>
    rw [absorb, record, size_put] at hlt
    exact absurd hlt (Nat.not_lt_of_le hn)
  | release hm hk h =>
    rw [release_eq hs.balanced, size_restageAll] at hlt
    rw [size_put] at hlt
    exact absurd hlt (Nat.not_lt_of_le hn)
  | stop hm =>
    rw [stop_eq, size_restageAll] at hlt
    exact absurd hlt (Nat.not_lt_of_le hn)

/-- Every request is where some run of its own has led it, and the journal says of it what this
run told. -/
theorem Reachable.run (h : s.Reachable) (hr : s.requests[n]? = some r) :
    ∃ qos exchange program inputs,
      Request.Run s.hooks s.config (.new n qos exchange program) inputs r (s.history n) := by
  induction h generalizing r with
  | start valid hooks => simp [new] at hr
  | @move s h m ih =>
    have hchange := h.change m
    have hframe := hchange.frame h.sound.balanced
    rw [hframe.1, hframe.2]
    by_cases hn : n < s.requests.size
    · have hold := Array.getElem?_eq_getElem hn
      obtain ⟨qos, exchange, program, inputs, hrun⟩ := ih hold
      obtain ⟨r', told, hr', hhistory, hstep⟩ := hchange.step h.sound hold
      rw [hr] at hr'
      cases hr'
      rw [hhistory]
      exact ⟨qos, exchange, program, _, hrun.step hstep⟩
    · obtain ⟨rfl, exchange, program, harrive⟩ :=
        hchange.arrived h.sound (Nat.le_of_not_lt hn) hr
      obtain ⟨hnew, hhistory⟩ := h.arrival exchange program
      rw [harrive] at hr ⊢
      rw [hnew] at hr
      cases hr
      rw [hhistory]
      exact ⟨_, exchange, program, [], .start⟩

end Scheduler

end Turnstile
