import Turnstile.Proofs.Scheduler.Change

/-!
# What every run keeps

A sound state in which everybody is in one place stays so under every move, and the settings and
the limits of the pool stay what they are. So all of this holds of every reachable state.

## Coming to another place

A request may come to another place in few ways: it gets a slot, it is put into the queue, a worker
picks it up, or it leaves. Each of them says how the counters and the lists follow, and a move of
one request (`Scheduler.Shift`) is one of them or keeps the place. When the slot is given back or
the scheduler is stopped, others change their places as well.
-/

namespace Turnstile

namespace Scheduler

variable {σ : Type} {s s' : Scheduler σ} {m : Move σ} {n : Nat} {r r' : Request σ}
  {input : Request.Input} {told : List Happening} {p : Pool} {jobs draining : List Nat}

/-! ## Coming to another place -/

theorem Placed.enrolling {admission : Admission} (hp : s.Placed)
    (hr : s.requests[n]? = some r) (h : r.stage = admission.stage) :
    r.waitsAs? = none ∧ n ∉ s.jobs ∧ r.stage.place.onSlot = false ∧
      r.stage.place.waiting = false := by
  rw [Request.waitsAs?, hp.mem_jobs hr, h]
  cases admission <;> simp [Admission.stage, Stage.place, Place.onSlot, Place.waiting]

theorem outstanding_accept {p₀ : Pool} {admission : Admission} (h : r.stage = admission.stage) :
    (p₀.accept admission).outstanding + r.stage.place.inside.toNat = p₀.outstanding + 1 := by
  rw [h]
  cases admission <;> rfl

theorem Placed.place {admission : Admission} {permits : List Nat} (hp : s.Placed)
    (hs : s.Numbered) (hr : s.requests[n]? = some r) (h : r.stage = admission.stage)
    (hpool : s.pool.enroll r.rank admission = .ok (.live, p)) :
    ({ s with pool := p, jobs := s.jobs ++ [r.ordinal], permits }.absorb
      ({ r with stage := .ready }, told)).Placed := by
  obtain ⟨placed, hplaced, rfl⟩ := Pool.enroll_eq_ok hpool
  obtain ⟨-, -, rfl⟩ := Pool.place_eq_live hplaced
  obtain ⟨hwaits, hjobs, hslot, hwaiting⟩ := hp.enrolling hr h
  have hn : r.ordinal = n := hs.ordinal hr
  have hqueue : (Pool.accept { s.pool with live := s.pool.live + 1 } admission).queue =
      s.pool.queue := by cases admission <;> rfl
  have hlive : (Pool.accept { s.pool with live := s.pool.live + 1 } admission).live =
      s.pool.live + 1 := by cases admission <;> rfl
  refine hp.shift hs hr rfl ?_ ?_ ?_ ?_ hp.nodup_draining ?_ ?_ (outstanding_accept h)
  · rw [hqueue]
    exact hp.queue_same hr (by rw [hwaits]; rfl)
  · intro k
    rw [List.mem_append, hn, List.mem_singleton]
    split
    next hk => simp [hk, Stage.place]
    next hk => simp [hk]
  · rw [hn]
    exact List.nodup_append.mpr ⟨hp.nodup_jobs, by simp, fun k hk k' hk' hkk ↦
      hjobs (by rw [List.mem_singleton] at hk'; rw [← hk', ← hkk]; exact hk)⟩
  · refine hp.draining_same hr ?_
    rw [h]
    cases admission <;> simp [Admission.stage, Stage.place]
  · rw [hqueue, hwaiting]
    rfl
  · rw [hlive, hslot]
    rfl

theorem Placed.queueUp {admission : Admission} {permits : List Nat} (hp : s.Placed)
    (hs : s.Numbered) (hq : s.pool.queue.Synced) (hr : s.requests[n]? = some r)
    (h : r.stage = admission.stage)
    (hpool : s.pool.enroll r.rank admission = .ok (.queued, p)) :
    ({ s with pool := p, permits }.absorb ({ r with stage := .queued }, told)).Placed := by
  obtain ⟨placed, hplaced, rfl⟩ := Pool.enroll_eq_ok hpool
  obtain ⟨-, -, -, queue, henqueue, rfl⟩ := Pool.place_eq_queued hplaced
  obtain ⟨hwaits, hjobs, hslot, hwaiting⟩ := hp.enrolling hr h
  have hn : r.ordinal = n := hs.ordinal hr
  have hqueue : (Pool.accept { s.pool with queue } admission).queue = queue := by
    cases admission <;> rfl
  have hlive : (Pool.accept { s.pool with queue } admission).live = s.pool.live := by
    cases admission <;> rfl
  refine hp.shift hs hr rfl ?_ ?_ hp.nodup_jobs ?_ hp.nodup_draining ?_ ?_ (outstanding_accept h)
  · intro k
    rw [hqueue, Queue.index_enqueue henqueue, Request.rank, hn]
    by_cases hk : k = n
    · rw [if_pos hk.symm, if_pos hk]
      rfl
    · rw [if_neg (Ne.symm hk), if_neg hk]
  · refine hp.jobs_same hr ?_
    rw [h]
    cases admission <;> simp [Admission.stage, Stage.place]
  · refine hp.draining_same hr ?_
    rw [h]
    cases admission <;> simp [Admission.stage, Stage.place]
  · rw [hqueue, hwaiting, Queue.size_enqueue hq henqueue]
    rfl
  · rw [hlive, hslot]
    rfl

theorem Placed.leave {draining permits : List Nat} (hp : s.Placed) (hs : s.Numbered)
    (hr : s.requests[n]? = some r) (ho : r'.ordinal = r.ordinal)
    (h : r.stage.place = .away ∨ r.stage.place = .drain ∨ r.stage.place = .outside)
    (h' : r'.stage.place = .outside)
    (hqueue : p.queue = s.pool.queue) (hlive : p.live = s.pool.live)
    (hout : p.outstanding + r.stage.place.inside.toNat = s.pool.outstanding)
    (hdraining : ∀ k, k ∈ draining ↔ k ≠ n ∧ k ∈ s.draining) (hnodup : draining.Nodup) :
    ({ s with pool := p, draining, permits }.absorb (r', told)).Placed := by
  have hwaits : r.waitsAs? = none := by
    rw [Request.waitsAs?, if_neg]
    rcases h with h | h | h <;> rw [h] <;> simp
  have hcounts : r.stage.place.waiting = false ∧ r.stage.place.onSlot = false := by
    rcases h with h | h | h <;> rw [h] <;> exact ⟨rfl, rfl⟩
  refine hp.shift hs hr ho ?_ ?_ hp.nodup_jobs ?_ hnodup ?_ ?_ ?_
  · rw [hqueue]
    refine hp.queue_same hr ?_
    rw [hwaits, Request.waitsAs?, h']
    rfl
  · refine hp.jobs_same hr ?_
    rcases h with h | h | h <;> rw [h, h'] <;> simp
  · intro k
    rw [hdraining, h']
    split
    next hk => simp [hk]
    next hk => simp [hk]
  · rw [h', hqueue, hcounts.1]
    rfl
  · rw [h', hlive, hcounts.2]
    rfl
  · rw [h', hout]
    rfl

theorem Placed.outstanding_pos (hp : s.Placed) (hr : s.requests[n]? = some r)
    (h : r.stage.place.inside = true) : 0 < s.pool.outstanding := by
  rw [hp.outstanding, population, count, Array.countP_pos_iff]
  exact ⟨r, Array.mem_of_getElem? hr, h⟩

theorem Placed.live_pos (hp : s.Placed) (hr : s.requests[n]? = some r)
    (h : r.stage.place.onSlot = true) : 0 < s.pool.live := by
  rw [hp.live, population, count, Array.countP_pos_iff]
  exact ⟨r, Array.mem_of_getElem? hr, h⟩

theorem Placed.pickUp {permits : List Nat} (hp : s.Placed) (hs : s.Numbered)
    (hr : s.requests[n]? = some r) (h : r.stage = .ready) (hj : s.jobs = r.ordinal :: jobs) :
    ({ s with jobs, permits }.absorb ({ r with stage := .running }, told)).Placed := by
  have hnodup := hp.nodup_jobs
  rw [hj, hs.ordinal hr] at hnodup
  obtain ⟨hfirst, hnodup⟩ := List.nodup_cons.mp hnodup
  refine hp.shift hs hr rfl ?_ ?_ hnodup ?_ hp.nodup_draining ?_ ?_ ?_
  · refine hp.queue_same hr ?_
    rw [Request.waitsAs?, Request.waitsAs?, h]
    rfl
  · intro k
    rw [hj, hs.ordinal hr]
    split
    next hk => simp [hk, hfirst, Stage.place]
    next hk => simp [hk]
  · exact hp.draining_same hr (by rw [h]; simp [Stage.place])
  all_goals
    rw [h]
    rfl

theorem Placed.rank {permits : List Nat} {qos : Qos} (hp : s.Placed) (hs : s.Numbered)
    (hsynced : s.pool.queue.Synced) (hr : s.requests[n]? = some r) (h : r.stage = .queued)
    (hpool : s.pool.reprioritize? r.ordinal qos = some p) :
    ({ s with pool := p, permits }.absorb
      ({ r with dossier := { r.dossier with qos } }, told)).Placed := by
  obtain ⟨⟨item, queue⟩, hq, rfl⟩ := Option.map_eq_some_iff.mp hpool
  refine hp.shift hs hr rfl ?_ ?_ hp.nodup_jobs ?_ hp.nodup_draining ?_ rfl rfl
  · intro k
    refine (Queue.index_reprioritize? hq k).trans ?_
    rw [hs.ordinal hr, Request.waitsAs?, h]
    by_cases hk : k = n
    · rw [if_pos hk.symm, if_pos hk]
      rfl
    · rw [if_neg (Ne.symm hk), if_neg hk]
  · exact hp.jobs_same hr Iff.rfl
  · exact hp.draining_same hr Iff.rfl
  · exact congrArg (· + _) (Queue.size_reprioritize? hsynced hq)

theorem Placed.mem_draining_of_ne (hp : s.Placed) (hr : s.requests[n]? = some r)
    (h : r.stage ≠ .drained) (k : Nat) : k ∈ s.draining ↔ k ≠ n ∧ k ∈ s.draining := by
  refine ⟨fun hk ↦ ⟨?_, hk⟩, And.right⟩
  rintro rfl
  exact h ((hp.mem_draining hr).mp hk)

/-! ## Moves of one request -/

variable [Exchange σ]

theorem Shift.step (h : Shift s r input r' told p jobs draining) :
    Request.Step s.hooks s.config r input r' told := by
  cases h with
  | own h => exact .own h
  | passGate h => exact .pass (by rw [h]; exact .passed)
  | fail h => exact .fail h
  | @place admission pool h hp =>
    refine .pass ?_
    cases admission <;> rw [h]
    · exact .admitted
    · exact .readmitted
  | @queue admission pool h hp =>
    refine .pass ?_
    cases admission <;> rw [h]
    · exact .enqueued
    · exact .requeued
  | @decline admission reason h hp =>
    refine .pass ?_
    cases admission <;> rw [h]
    · exact .declined reason
    · exact .turnedAway reason
  | pickUp h hj => exact .pass (by rw [h]; exact .pickedUp)
  | finish h => exact .finish h
  | @refuse reason admitted h => exact .refuse (.inl ⟨admitted, h⟩)
  | drain h hd => exact .refuse (.inr ⟨h, rfl⟩)
  | rank h hp => exact .rank _ h

theorem Shift.pool (h : Shift s r input r' told p jobs draining) :
    p = s.pool ∨ Pool.Step s.pool p := by
  cases h with
  | own h => exact .inl rfl
  | passGate h => exact .inl rfl
  | fail h => exact .inr .countFailure
  | place h hp => exact .inr (.enroll hp)
  | queue h hp => exact .inr (.enroll hp)
  | decline h hp => exact .inl rfl
  | pickUp h hj => exact .inl rfl
  | finish h =>
    cases (Request.finish s.hooks r).1 with
    | none => exact .inl rfl
    | some completed => exact .inr (.retire completed)
  | refuse h => exact .inr (.refuse _)
  | drain h hd => exact .inr (.refuse true)
  | rank h hp => exact .inr (.reprioritize hp)

/-! ## Soundness -/

/-- The pool changes by its own operations only. -/
theorem Change.pool (hb : s.pool.Balanced) (h : Change s m s') :
    s'.pool = s.pool ∨ Pool.Step s.pool s'.pool := by
  cases h with
  | stay permits quiet => exact .inl rfl
  | arrive hm => exact .inl rfl
  | shift permits hr others h => exact h.pool
  | release hm hr h =>
    rw [release_eq hb, restageAll_pool]
    exact .inr .release
  | stop hm =>
    rw [stop_eq, restageAll_pool]
    exact .inr .stop

theorem Change.balanced (hb : s.pool.Balanced) (h : Change s m s') : s'.pool.Balanced := by
  rcases h.pool hb with hsame | hstep
  · rw [hsame]
    exact hb
  · exact hb.step hstep

theorem Change.frame (hb : s.pool.Balanced) (h : Change s m s') :
    s'.config = s.config ∧ s'.hooks = s.hooks := by
  cases h with
  | release hm hr h =>
    rw [release_eq hb, restageAll_frame]
    exact ⟨rfl, rfl⟩
  | stop hm =>
    rw [stop_eq, restageAll_frame]
    exact ⟨rfl, rfl⟩
  | _ => exact ⟨rfl, rfl⟩

theorem Sound.arrive (hs : s.Sound) (exchange : σ) (program : Program) :
    (s.arrive exchange program).Sound where
  numbered.ordinal {n r} hr := by
    rw [Scheduler.arrive, Array.getElem?_push] at hr
    split at hr
    next hn => cases hr; exact hn.symm
    · exact hs.numbered.ordinal hr
  numbered.journal e he := by
    have := hs.numbered.journal e he
    rw [Scheduler.arrive, Array.size_push]
    omega
  wellFormed {n r} hr := by
    rw [Scheduler.arrive, Array.getElem?_push] at hr
    split at hr
    · cases hr
      exact Request.wellFormed_new _ _ _ _
    · exact hs.wellFormed hr
  balanced := hs.balanced

theorem Change.sound (hs : s.Sound) (h : Change s m s') : s'.Sound := by
  have hb := h.balanced hs.balanced
  cases h with
  | stay permits quiet => exact hs.congr rfl rfl hb
  | @arrive exchange program hm => exact hs.arrive exchange program
  | shift permits hr others h =>
    obtain ⟨hordinal, hw⟩ := h.step.kept (hs.wellFormed hr)
    exact Sound.absorb (hs.congr rfl rfl hb) hr hordinal hw
  | @release n r exit hm hr h =>
    rw [release_eq hs.balanced]
    refine Sound.restageAll ?_ Request.promoted_idem Request.promoted_passes _
    exact (hs.depart hr h).congr rfl rfl hs.balanced.release
  | stop hm =>
    rw [stop_eq]
    refine Sound.restageAll ?_ Request.dismissed_idem Request.dismissed_passes _
    exact hs.congr rfl rfl hs.balanced.stop

/-! ## Everybody in one place -/

theorem Placed.finish {permits : List Nat} (hp : s.Placed) (hs : s.Sound)
    (hr : s.requests[n]? = some r) (h : r.stage = .finishing) :
    ({ s with pool := (Request.finish s.hooks r).1.elim s.pool s.pool.retire, permits }.absorb
      ({ (Request.finish s.hooks r).2.1 with
        stage := .gone (.ofFinish (Request.finish s.hooks r).1) }, told)).Placed := by
  have hopen : r.closed = false := (hs.wellFormed hr).closed (by rw [h]; rfl)
  -- the request itself is counted, so the subtraction is exact
  have hpos : 0 < s.pool.outstanding := hp.outstanding_pos hr (by rw [h]; rfl)
  obtain ⟨completed, hcompleted⟩ : ∃ b, (Request.finish s.hooks r).1 = some b := by
    unfold Request.finish
    rw [if_neg (by simp [hopen])]
    exact ⟨_, rfl⟩
  rw [hcompleted]
  refine hp.leave hs.numbered hr (Request.finish_ordinal s.hooks r) (.inl (by rw [h]; rfl))
    rfl rfl rfl ?_ (hp.mem_draining_of_ne hr (by rw [h]; nofun)) hp.nodup_draining
  rw [h]
  exact Nat.sub_add_cancel hpos

theorem Placed.refuse {permits : List Nat} {reason : Refusal} {admitted : Bool} (hp : s.Placed)
    (hs : s.Numbered) (hr : s.requests[n]? = some r) (h : r.stage = .refusing reason admitted) :
    ({ s with pool := s.pool.refuse admitted, permits }.absorb
      ({ (Request.refuse s.hooks r reason).1 with stage := .gone (.refused reason) },
        told)).Placed := by
  have hplace : r.stage.place = if admitted then .away else .outside := by
    rw [h]
    cases admitted <;> rfl
  refine hp.leave hs hr (Request.refuse_ordinal s.hooks r reason) ?_ rfl rfl rfl ?_
    (hp.mem_draining_of_ne hr ?_) hp.nodup_draining
  · cases admitted with
    | false => exact .inr (.inr hplace)
    | true => exact .inl hplace
  · cases admitted with
    | false =>
      rw [hplace]
      rfl
    | true =>
      have hpos : 0 < s.pool.outstanding := hp.outstanding_pos hr (by rw [hplace]; rfl)
      rw [hplace]
      exact Nat.sub_add_cancel hpos
  · rw [h]
    nofun

theorem Placed.drain {permits : List Nat} (hp : s.Placed) (hs : s.Numbered)
    (hr : s.requests[n]? = some r) (h : r.stage = .drained)
    (hd : s.draining = r.ordinal :: draining) :
    ({ s with pool := s.pool.refuse true, draining, permits }.absorb
      ({ (Request.refuse s.hooks r .shutdown).1 with stage := .gone (.refused .shutdown) },
        told)).Placed := by
  have hpos : 0 < s.pool.outstanding := hp.outstanding_pos hr (by rw [h]; rfl)
  have hnodup := hp.nodup_draining
  rw [hd, hs.ordinal hr] at hnodup
  obtain ⟨hfirst, hnodup⟩ := List.nodup_cons.mp hnodup
  refine hp.leave hs hr (Request.refuse_ordinal s.hooks r .shutdown)
    (.inr (.inl (by rw [h]; rfl))) rfl rfl rfl ?_ ?_ hnodup
  · rw [h]
    exact Nat.sub_add_cancel hpos
  · intro k
    rw [hd, hs.ordinal hr, List.mem_cons]
    constructor
    · intro hk
      exact ⟨fun hkn ↦ hfirst (hkn ▸ hk), .inr hk⟩
    · rintro ⟨hkn, hk | hk⟩
      · exact absurd hk hkn
      · exact hk

theorem Shift.placed {permits : List Nat} (hs : s.Sound) (hp : s.Placed)
    (hr : s.requests[n]? = some r) (h : Shift s r input r' told p jobs draining) :
    ({ s with pool := p, jobs, draining, permits }.absorb (r', told)).Placed := by
  have hw : r.WellFormed := hs.wellFormed hr
  have hnums := hs.numbered
  cases h with
  | own h => exact hp.keep hnums hr (h.kept hw) rfl rfl rfl
  | passGate h =>
    have hkept : Request.Kept r { r with stage := .running } :=
      hw.kept_pass (by rw [h]; exact .passed) (by rw [h]; rfl)
    exact hp.keep hnums hr hkept rfl rfl rfl
  | @fail failure h =>
    have hkept := (Request.moved_fail s.hooks r failure).kept hw (by rw [h]; rfl) (by rw [h]; rfl)
    exact hp.keep hnums hr hkept rfl rfl rfl
  | place h hpool => exact hp.place hnums hr h hpool
  | queue h hpool => exact hp.queueUp hnums hs.balanced.synced hr h hpool
  | @decline admission reason h hpool =>
    refine hp.keep hnums hr ?_ rfl rfl rfl
    cases admission with
    | fresh => exact hw.kept_pass (by rw [h]; exact .declined reason) (by rw [h]; rfl)
    | resumed => exact hw.kept_pass (by rw [h]; exact .turnedAway reason) (by rw [h]; rfl)
  | pickUp h hj => exact hp.pickUp hnums hr h hj
  | finish h => exact hp.finish hs hr h
  | refuse h => exact hp.refuse hnums hr h
  | drain h hd => exact hp.drain hnums hr h hd
  | rank h hpool => exact hp.rank hnums hs.balanced.synced hr h hpool

theorem Placed.arrive (hp : s.Placed) (exchange : σ) (program : Program) :
    (s.arrive exchange program).Placed := by
  have hplace (k : Nat) (hk : k = s.requests.size → False) :
      (s.arrive exchange program).requests[k]? = s.requests[k]? := by
    rw [Scheduler.arrive, Array.getElem?_push, if_neg hk]
  have hnew : (s.arrive exchange program).placeOf? s.requests.size = some .outside := by
    rw [placeOf?, Scheduler.arrive, Array.getElem?_push, if_pos rfl]
    rfl
  have hnone : s.placeOf? s.requests.size = none := by
    rw [placeOf?, Array.getElem?_eq_none (Nat.le_refl _)]
    rfl
  have hpopulation (kind : Place → Bool) (hkind : kind .outside = false) :
      (s.arrive exchange program).population kind = s.population kind := by
    rw [population, count, Scheduler.arrive, Array.countP_push]
    simp [Request.new, Stage.place, hkind, population, count]
  exact {
    queue := by
      intro k
      by_cases hk : k = s.requests.size
      · refine (hp.queue k).trans ?_
        rw [hk, Array.getElem?_eq_none (Nat.le_refl _), Scheduler.arrive, Array.getElem?_push,
          if_pos rfl]
        rfl
      · rw [hplace k hk]
        exact hp.queue k
    jobs := by
      intro k
      refine (hp.jobs k).trans ?_
      by_cases hk : k = s.requests.size
      · rw [hk, hnew, hnone]
        simp
      · rw [placeOf?, placeOf?, hplace k hk]
    nodup_jobs := hp.nodup_jobs
    draining := by
      intro k
      refine (hp.draining k).trans ?_
      by_cases hk : k = s.requests.size
      · rw [hk, hnew, hnone]
        simp
      · rw [placeOf?, placeOf?, hplace k hk]
    nodup_draining := hp.nodup_draining
    size := hp.size.trans (hpopulation Place.waiting rfl).symm
    live := hp.live.trans (hpopulation Place.onSlot rfl).symm
    outstanding := hp.outstanding.trans (hpopulation Place.inside rfl).symm }

omit [Exchange σ] in
/-- A request that gives its slot back is taken off it, and those promoted move up. -/
theorem Placed.release {exit : Exit} (hs : s.Sound) (hp : s.Placed)
    (hr : s.requests[n]? = some r) (h : r.stage = .leaving exit) : (s.release r exit).Placed := by
  have hpos : 0 < s.pool.live := hp.live_pos hr (by rw [h]; rfl)
  -- first it comes off its slot, with the queue as it was; then the promotion fills the slot
  have hput : ({ s with pool := { s.pool with live := s.pool.live - 1 } }.absorb
      ({ r with stage := .departed exit }, [])).Placed := by
    refine hp.shift hs.numbered hr rfl ?_ ?_ hp.nodup_jobs ?_ hp.nodup_draining ?_ ?_ ?_
    · refine hp.queue_same hr ?_
      rw [Request.waitsAs?, Request.waitsAs?, h]
      rfl
    · exact hp.jobs_same hr (by rw [h]; simp [Stage.place])
    · exact hp.draining_same hr (by rw [h]; simp [Stage.place])
    · rw [h]
      rfl
    · rw [h]
      exact Nat.sub_add_cancel hpos
    · rw [h]
      rfl
  have hsound := hs.depart hr h
  rw [release_eq hs.balanced]
  exact hput.promote ⟨hsound.numbered.ordinal, hsound.numbered.journal⟩
    hs.balanced.promoted_release

theorem Change.placed (hs : s.Sound) (hp : s.Placed) (h : Change s m s') : s'.Placed := by
  cases h with
  | stay permits quiet => exact { hp with }
  | @arrive exchange program hm => exact hp.arrive exchange program
  | shift permits hr others h => exact h.placed hs hp hr
  | release hm hr h => exact Placed.release hs hp hr h
  | stop hm => exact hp.dismiss hs.numbered hs.balanced.synced

/-! ## Reachable states -/

omit [Exchange σ] in
theorem sound_new {config : Config} (valid : config.Valid) (hooks : Hooks) :
    (new config hooks : Scheduler σ).Sound where
  numbered := ⟨by simp [new], by simp [new]⟩
  wellFormed := by simp [new]
  balanced := Pool.balanced_empty valid.cap

theorem Reachable.sound_and_placed (h : s.Reachable) : s.Sound ∧ s.Placed := by
  induction h with
  | start valid hooks => exact ⟨sound_new valid hooks, placed_new _ hooks⟩
  | move h m ih =>
    -- both are kept together: that a move is a change at all depends on where everybody is
    have hchange := change_perform ih.1.numbered ih.2 m
    exact ⟨hchange.sound ih.1, hchange.placed ih.1 ih.2⟩

theorem Reachable.sound (h : s.Reachable) : s.Sound := h.sound_and_placed.1

theorem Reachable.placed (h : s.Reachable) : s.Placed := h.sound_and_placed.2

theorem Reachable.change (h : s.Reachable) (m : Move σ) : Change s m (s.perform m) :=
  change_perform h.sound.numbered h.placed m

end Scheduler

end Turnstile
