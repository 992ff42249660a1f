import Turnstile.Exchange.Scripted
import Turnstile.Proofs.Pool.Order
import Turnstile.Proofs.Scheduler.Accounting
import Turnstile.Proofs.Scheduler.Admission
import Turnstile.Proofs.Scheduler.Classes

/-!
# Priority

Those who wait are given slots by class, and within a class by arrival. A request is taken out of
the queue only when a slot is given back, and then it stood first. Its class is the one given to it
last, and its place among those of its class is the one of its arrival, however often it came back
with its body.

## Who starts

The jobs are picked up in the order in which they were named, and those who wait are named behind
them in the order of service. So as long as nobody asks for a slot and nobody is moved to another
class, the order in which requests will start is fixed: it is the line of jobs and of those who
wait, and a worker that picks up a request takes the first of it.
-/

namespace Turnstile

namespace Scheduler

variable {σ : Type} {s s' : Scheduler σ} {m : Move σ} {n k : Nat} {r r' q : Request σ}

/-! ## The queue and those who wait -/

theorem Placed.mem_ordinals (hp : s.Placed) (hb : s.pool.Balanced) :
    n ∈ s.pool.queue.ordinals ↔ ∃ r, s.requests[n]? = some r ∧ r.stage = .queued := by
  rw [hb.synced.mem_ordinals]
  constructor
  · rintro ⟨qos, hqos⟩
    obtain ⟨r, hr, hstage, -⟩ := hp.queued hqos
    exact ⟨r, hr, hstage⟩
  · rintro ⟨r, hr, hstage⟩
    refine ⟨r.dossier.qos, ?_⟩
    rw [hp.queue, hr, Option.bind_some, Request.waitsAs?,
      if_pos (Stage.place_eq_queue.mpr hstage)]

theorem Placed.precedes_ordinals (hp : s.Placed) (hs : s.Sound) :
    s.pool.queue.ordinals.Pairwise fun n k ↦ ∀ {r q : Request σ}, s.requests[n]? = some r →
      s.requests[k]? = some q → r.rank.Precedes q.rank := by
  have hindex {n : Nat} (h : n ∈ s.pool.queue.ordinals) {r : Request σ}
      (hr : s.requests[n]? = some r) : s.pool.queue.index[n]? = some r.dossier.qos := by
    obtain ⟨r', hr', hstage⟩ := (hp.mem_ordinals hs.balanced).mp h
    cases hr.symm.trans hr'
    rw [hp.queue, hr, Option.bind_some, Request.waitsAs?,
      if_pos (Stage.place_eq_queue.mpr hstage)]
  refine hs.balanced.synced.precedes_ordinals.imp_of_mem fun hn hk hprecedes r q hr hq ↦ ?_
  have h := hprecedes (hindex hn hr) (hindex hk hq)
  rw [Request.rank, Request.rank, hs.numbered.ordinal hr, hs.numbered.ordinal hq]
  exact h

/-! ## Getting a slot out of the queue -/

variable [Exchange σ]

theorem Shift.not_promoted {input : Request.Input} {told : List Happening} {p : Pool}
    {jobs draining : List Nat} (hw : r.WellFormed)
    (h : Shift s r input r' told p jobs draining) (hqueued : r.stage = .queued) :
    r'.stage ≠ .ready := by
  intro hready
  have hne (admission : Admission) (hstage : r.stage = admission.stage) : False := by
    rw [hqueued] at hstage
    cases admission <;> cases hstage
  cases h with
  | own h =>
    have hplace := (h.kept hw).place
    rw [hready, hqueued] at hplace
    cases hplace
  | place hstage hp => exact hne _ hstage
  | rank hstage hp => exact absurd (hqueued.symm.trans hready) (by simp)
  | _ => cases hready

/-- A request that waited and is given a slot by a move of anybody is one that the pool takes out
of the queue for a slot that is given back. -/
theorem Change.promoted (hs : s.Sound) (h : Change s m s') (hr : s.requests[n]? = some r)
    (hqueued : r.stage = .queued) (hr' : s'.requests[n]? = some r') (hready : r'.stage = .ready) :
    n ∈ s.pool.release.promoted := by
  have unmoved (hsame : s'.requests[n]? = s.requests[n]?) : False := by
    rw [hsame, hr] at hr'
    cases hr'
    rw [hqueued] at hready
    cases hready
  cases h with
  | stay permits quiet => exact (unmoved rfl).elim
  | arrive hm =>
    refine (unmoved ?_).elim
    rw [Scheduler.arrive, Array.getElem?_push, if_neg (Nat.ne_of_lt (lt_size hr))]
  | @shift k r₀ r₁ told p jobs draining permits hk others h =>
    have hget := hs.numbered.getElem?_put (n := n) hk (h.step.kept (hs.wellFormed hk)).1
    by_cases hkn : k = n
    · subst hkn
      rw [hr] at hk
      cases hk
      cases hr'.symm.trans (hget.trans (if_pos rfl))
      exact absurd hready (h.not_promoted (hs.wellFormed hr) hqueued)
    · exact (unmoved (hget.trans (if_neg hkn))).elim
  | @release k r₀ exit hm hk h =>
    have hkn : k ≠ n := by
      rintro rfl
      rw [hr] at hk
      cases hk
      rw [hqueued] at h
      cases h
    have hget : (s.put { r₀ with stage := .departed exit }).requests[n]? = some r :=
      (hs.numbered.getElem?_put hk (by rfl)).trans ((if_neg hkn).trans hr)
    have hnumbered := (hs.depart hk h).numbered
    -- the promotion makes those ready whom it takes out of the queue, and nobody else
    by_contra hn
    rw [release_eq hs.balanced, restageAll_getElem?
      (by exact ⟨hnumbered.ordinal, hnumbered.journal⟩) Request.promoted_idem] at hr'
    rw [hget, Option.map_some, if_neg hn] at hr'
    cases hr'
    rw [hqueued] at hready
    cases hready
  | stop hm =>
    rw [stop_eq, restageAll_getElem?
      (by exact ⟨hs.numbered.ordinal, hs.numbered.journal⟩) Request.dismissed_idem] at hr'
    rw [hr, Option.map_some] at hr'
    cases hr'
    split at hready <;> rw [hqueued] at hready <;> cases hready

/-- A request that waited and is given a slot precedes all others who wait. -/
theorem Reachable.promoted_precedes (h : s.Reachable) (hr : s.requests[n]? = some r)
    (hqueued : r.stage = .queued) (hr' : (s.perform m).requests[n]? = some r')
    (hready : r'.stage = .ready) (hq : s.requests[k]? = some q) (hwaits : q.stage = .queued)
    (hkn : k ≠ n) : r.rank.Precedes q.rank := by
  have hs := h.sound
  have hpromoted := (h.change m).promoted hs hr hqueued hr' hready
  -- the pool takes out one request at most, so this one, and it stood first
  have hordinals := hs.balanced.release_ordinals
  have hlength := hs.balanced.promoted_length_le
  obtain ⟨first, hfirst⟩ : ∃ first, s.pool.release.promoted = [first] :=
    List.length_eq_one_iff.mp (Nat.le_antisymm hlength (List.length_pos_of_mem hpromoted))
  rw [hfirst, List.mem_singleton] at hpromoted
  subst hpromoted
  rw [hfirst, List.singleton_append] at hordinals
  have hsorted := h.placed.precedes_ordinals hs
  rw [← hordinals] at hsorted
  refine (List.pairwise_cons.mp hsorted).1 k ?_ hr hq
  have hmem := (h.placed.mem_ordinals hs.balanced).mpr ⟨q, hq, hwaits⟩
  rw [← hordinals] at hmem
  exact (List.mem_cons.mp hmem).resolve_left hkn

theorem Reachable.exists_promoted (h : s.Reachable) (hr : s.requests[n]? = some r) {exit : Exit}
    (hstage : r.stage = .leaving exit) {first : Nat} {rest : List Nat}
    (hline : s.pool.queue.ordinals = first :: rest) :
    ∃ r', (s.perform (.advance n)).requests[first]? = some r' ∧ r'.stage = .ready := by
  have hs := h.sound
  have hlive : 0 < s.pool.live := h.placed.live_pos hr (by rw [hstage]; rfl)
  obtain ⟨hpromoted, -⟩ := hs.balanced.release_promoted hlive hline
  obtain ⟨q, hq, hqueued⟩ := (h.placed.mem_ordinals hs.balanced).mp
    (by rw [hline]; exact List.mem_cons_self)
  have hnumbered := (hs.depart hr hstage).numbered
  have hne : n ≠ first := by
    rintro rfl
    cases hr.symm.trans hq
    rw [hqueued] at hstage
    cases hstage
  have hget : (s.put { r with stage := .departed exit }).requests[first]? = some q :=
    (hs.numbered.getElem?_put hr (by rfl)).trans ((if_neg hne).trans hq)
  refine ⟨{ q with stage := .ready }, ?_, rfl⟩
  rw [perform, advance, hr]
  dsimp only
  rw [advanceRequest, hstage]
  dsimp only
  rw [release_eq hs.balanced, restageAll_getElem?
    (by exact ⟨hnumbered.ordinal, hnumbered.journal⟩) Request.promoted_idem]
  rw [hget, Option.map_some, if_pos (by rw [hpromoted]; exact List.mem_singleton_self first),
    hqueued]
  rfl

/-! ## The line -/

omit [Exchange σ] in
/-- Those who will start, in this order: the jobs, and behind them those who wait. -/
def line (s : Scheduler σ) : List Nat := s.jobs ++ s.pool.queue.ordinals

/-- With this move somebody asks for a slot, somebody who waits is moved to another class, or
everybody is taken out of the queue. -/
def disturbs (s : Scheduler σ) : Move σ → Bool
  | .advance n => (s.requests[n]?.map Request.stage).any fun
    | .arriving | .returning => true
    | _ => false
  | .reprioritize n qos => (s.reprioritize n qos).1
  | .stop => true
  | _ => false

/-- In this run nobody enters the line, leaves it without being started, or changes places. -/
def Undisturbed : Scheduler σ → List (Move σ) → Prop
  | _, [] => True
  | s, m :: moves => s.disturbs m = false ∧ Undisturbed (s.perform m) moves

/-- The request that a worker picks up with a move. -/
def startedBy (s : Scheduler σ) : Move σ → List Nat
  | .advance n =>
    if s.placeOf? n = some .job ∧ (s.perform (.advance n)).placeOf? n = some .worker then [n]
    else []
  | _ => []

/-- The requests that workers pick up in a run, in this order. -/
def started : Scheduler σ → List (Move σ) → List Nat
  | _, [] => []
  | s, m :: moves => s.startedBy m ++ started (s.perform m) moves

theorem startedBy_of_ne_ready (hr : s.requests[n]? = some r) (h : r.stage ≠ .ready) :
    s.startedBy (.advance n) = [] := by
  rw [startedBy, if_neg]
  rintro ⟨hjob, -⟩
  rw [placeOf?, hr, Option.map_some, Option.some_inj, Stage.place_eq_job] at hjob
  exact h hjob

theorem startedBy_pickUp (hs : s.Numbered) (hr : s.requests[n]? = some r) (h : r.stage = .ready) :
    s.startedBy (.advance n) ++ (s.pickUp r).jobs = s.jobs := by
  have hperform : s.perform (.advance n) = s.pickUp r := by
    rw [perform, advance, hr]
    dsimp only
    rw [advanceRequest, h]
  have hordinal := hs.ordinal hr
  have hjob : s.placeOf? n = some .job := by
    rw [placeOf?, hr, Option.map_some, h]
    rfl
  rw [startedBy, hperform]
  unfold pickUp
  split
  next first jobs hj =>
    split
    next hfirst =>
      have hplace := placeOf?_put (s := { s with jobs }) (n := n)
        (r := { r with stage := .running }) (by exact hordinal ▸ lt_size hr)
      rw [hplace, if_pos hordinal, if_pos ⟨hjob, rfl⟩, hj, hfirst, hordinal]
      rfl
    · rw [if_neg (by rw [hjob]; simp)]
      rfl
  next hj =>
    rw [if_neg (by rw [hjob]; simp), hj]
    rfl

theorem Reachable.startedBy_advance_line (h : s.Reachable) (hm : s.disturbs (.advance n) = false) :
    s.startedBy (.advance n) ++ (s.perform (.advance n)).line = s.line := by
  have hs := h.sound
  cases hr : s.requests[n]? with
  | none =>
    have hnone : s.placeOf? n = none := by rw [placeOf?, hr, Option.map_none]
    rw [startedBy, if_neg (by simp [hnone]), perform, advance, hr]
    rfl
  | some r =>
    have quiet (hstage : r.stage ≠ .ready) {t : Scheduler σ}
        (ht : t.line = s.line) : s.startedBy (.advance n) ++ t.line = s.line := by
      rw [startedBy_of_ne_ready hr hstage, List.nil_append, ht]
    rw [disturbs, hr, Option.map_some, Option.any_some] at hm
    rw [perform, advance, hr]
    dsimp only
    unfold advanceRequest
    split
    next hstage => rw [hstage] at hm; cases hm
    next hstage => rw [hstage] at hm; cases hm
    next hstage =>
      have hpool : (s.pickUp r).pool = s.pool := by
        unfold pickUp
        split
        · split <;> rfl
        · rfl
      rw [line, hpool, ← List.append_assoc, startedBy_pickUp hs.numbered hr hstage, line]
    next hstage => exact quiet (by simp [hstage]) rfl
    next hstage =>
      refine quiet (by simp [hstage]) ?_
      split <;> rfl
    next exit hstage =>
      refine quiet (by simp [hstage]) ?_
      rw [release_eq hs.balanced, line, restageAll_jobs, restageAll_pool, line,
        ← hs.balanced.release_ordinals, List.append_assoc]
    next exit hstage => exact quiet (by simp [hstage]) rfl
    next hstage =>
      refine quiet (by simp [hstage]) ?_
      split <;> rfl
    next hstage =>
      refine quiet (by simp [hstage]) ?_
      split <;> rfl
    next failure hstage => exact quiet (by simp [hstage]) rfl
    next hstage =>
      refine quiet (by simp [hstage]) ?_
      unfold finish
      rcases Request.finish s.hooks r with ⟨completed?, r', told⟩
      cases completed? <;> rfl
    next reason admitted hstage => exact quiet (by simp [hstage]) rfl
    all_goals
      next hstage => exact quiet (by simp [hstage]) rfl

/-- A move that disturbs nobody leaves the line as it is, but for the first of it if that starts. -/
theorem Reachable.startedBy_line (h : s.Reachable) (hm : s.disturbs m = false) :
    s.startedBy m ++ (s.perform m).line = s.line := by
  cases m with
  | arrive exchange program => rfl
  | advance n => exact h.startedBy_advance_line hm
  | deliver n direction events =>
    rw [perform, deliver]
    split <;> rfl
  | wake n =>
    rw [perform, wake]
    split
    · split <;> rfl
    · rfl
  | forget n =>
    rw [perform, forget]
    split
    · unfold forgetRequest
      split <;> rfl
    · rfl
  | openGate n => rfl
  | reprioritize n qos =>
    rw [disturbs] at hm
    rw [perform]
    unfold reprioritize at hm ⊢
    split at hm
    · cases hm
    · rfl
  | stop => cases hm
  | drain =>
    rw [perform, drain]
    split
    · split <;> rfl
    · rfl

/-- In a run that nobody disturbs, those who start are the first of the line, in its order. -/
theorem Reachable.started_line (h : s.Reachable) {moves : List (Move σ)}
    (hmoves : s.Undisturbed moves) : s.started moves ++ (s.performAll moves).line = s.line := by
  induction moves generalizing s with
  | nil => rfl
  | cons m moves ih =>
    obtain ⟨hm, hrest⟩ := hmoves
    have hline := ih (h.move m) hrest
    rw [started, List.append_assoc, ← h.startedBy_line hm, ← hline]
    rfl

theorem Reachable.jobs_length_lt (h : s.Reachable) (hk : s.placeOf? k = some .worker) :
    s.jobs.length < s.config.workerCount := by
  have hp := h.placed
  have hslot (n : Nat) (hn : n ∈ k :: s.jobs) : s.onSlot n = true := by
    rw [hp.onSlot_iff]
    rcases List.mem_cons.mp hn with rfl | hn
    · exact ⟨_, hk, rfl⟩
    · exact ⟨_, (hp.jobs n).mp hn, rfl⟩
  have hnodup : (k :: s.jobs).Nodup := by
    refine List.nodup_cons.mpr ⟨fun hmem ↦ ?_, hp.nodup_jobs⟩
    rw [hp.jobs, hk] at hmem
    cases hmem
  have hsub : (k :: s.jobs) ⊆ (List.range s.requests.size).filter s.onSlot := by
    intro n hn
    have hon := hslot n hn
    obtain ⟨place, hplace, -⟩ := hp.onSlot_iff.mp hon
    obtain ⟨r, hr, -⟩ := Option.map_eq_some_iff.mp hplace
    exact List.mem_filter.mpr ⟨List.mem_range.mpr (lt_size hr), hon⟩
  have hle := (List.subperm_of_subset hnodup hsub).length_le
  rw [List.length_cons, ← List.countP_eq_length_filter] at hle
  have hlive := h.accounted.live
  have hbound := h.sound.balanced.live_le
  rw [h.limits.1] at hbound
  rw [tally] at hlive
  omega

/-! ## Who is served first -/

/-- Who is served first among the requests of a state, where `given` tells the classes given to
them last. -/
structure Prioritized (s : Scheduler σ) (given : Nat → Option Qos) : Prop where
  /-- The rank of a request is made of the class given to it last and its place in the order of
  arrival. -/
  rank : ∀ {n : Nat} {r : Request σ}, s.requests[n]? = some r →
    given n = some r.rank.qos ∧ r.rank.ordinal = n
  /-- A request that waits and is given a slot precedes all others who wait. -/
  promoted : ∀ {m : Move σ} {n k : Nat} {r r' q : Request σ}, s.requests[n]? = some r →
    r.stage = .queued → (s.perform m).requests[n]? = some r' → r'.stage = .ready →
    s.requests[k]? = some q → q.stage = .queued → k ≠ n → r.rank.Precedes q.rank
  /-- A request that asks for a slot and gets one at once finds nobody waiting. -/
  direct : ∀ {m : Move σ} {n k : Nat} {r r' q : Request σ}, s.requests[n]? = some r →
    r.stage = .arriving ∨ r.stage = .returning → (s.perform m).requests[n]? = some r' →
    r'.stage = .ready → s.requests[k]? = some q → q.stage ≠ .queued
  /-- With one worker, and that busy: those who wait start in the order of service, as long as
  nobody enters the line and nobody in it is moved. -/
  released : s.config.workerCount = 1 → ∀ {k : Nat} {busy : Request σ},
    s.requests[k]? = some busy → busy.stage.place = .worker →
    ∃ order : List Nat, order.Nodup ∧
      (∀ n, n ∈ order ↔ ∃ r, s.requests[n]? = some r ∧ r.stage = .queued) ∧
      (order.Pairwise fun n k ↦ ∀ {r q : Request σ}, s.requests[n]? = some r →
        s.requests[k]? = some q → r.rank.Precedes q.rank) ∧
      ∀ {moves : List (Move σ)}, s.Undisturbed moves →
        s.started moves ++ (s.performAll moves).line = order

/-- After every run, those who wait are served by the class given to them last, and within a class
by arrival. -/
theorem performAll_prioritized {config : Config} {hooks : Hooks} (h : start? config hooks = .ok s)
    (moves : List (Move σ)) :
    (s.performAll moves).Prioritized fun n ↦ given? n s none moves := by
  have hstart := reachable_of_start? h
  have hreachable := hstart.performAll moves
  have hbalanced := hreachable.sound.balanced
  exact {
    rank := by
      intro n r hr
      have hclass := hstart.class?_performAll (n := n) moves
      have hnone : s.class? n = none := by
        obtain ⟨-, rfl⟩ := start?_eq_ok h
        simp [class?, new]
      rw [hnone, class?, hr] at hclass
      exact ⟨hclass.symm, hreachable.sound.numbered.ordinal hr⟩
    promoted := hreachable.promoted_precedes
    direct := by
      intro m n k r r' q hr hstage hr' hready hq hqueued
      have hasks : Asks r := by
        rcases hstage with hstage | hstage
        · exact ⟨.fresh, hstage⟩
        · exact ⟨.resumed, hstage⟩
      have hempty := (hreachable.change m).nobodyWaits hreachable.sound hr hasks hr' hready
      have hmem := (hreachable.placed.mem_ordinals hbalanced).mpr ⟨q, hq, hqueued⟩
      rw [← Queue.length_ordinals] at hempty
      exact absurd hempty (Nat.ne_of_gt (List.length_pos_of_mem hmem))
    released := by
      intro hone k busy hk hplace
      have hbusy : (s.performAll moves).placeOf? k = some .worker := by
        rw [placeOf?, hk, Option.map_some, hplace]
      have hjobs := hreachable.jobs_length_lt hbusy
      rw [hone, Nat.lt_one_iff, List.length_eq_zero_iff] at hjobs
      refine ⟨_, hbalanced.synced.nodup_ordinals, fun n ↦ hreachable.placed.mem_ordinals hbalanced,
        hreachable.placed.precedes_ordinals hreachable.sound, fun hmoves ↦ ?_⟩
      rw [hreachable.started_line hmoves, line, hjobs, List.nil_append] }

/-- Three requests arrive at one worker. The first is picked up and ends, and the last is moved to
a higher class while it waits behind the second. -/
def movedUp : List (Move Scripted) :=
  [.arrive (.new default) (.pure .unit), .advance 0, .advance 0,
    .arrive (.new default) (.pure .unit), .advance 1,
    .arrive (.new default) (.pure .unit), .advance 2, .reprioritize 2 .high, .advance 0]

/-- The last of the three is given the slot of the first, since its class is higher. -/
theorem performAll_prioritized_movedUp :
    start? (.sized 1) (.plain .normal) = .ok oneWorker ∧
      ∃ r r' q, (oneWorker.performAll movedUp).requests[2]? = some r ∧ r.stage = .queued ∧
        ((oneWorker.performAll movedUp).perform (.advance 0)).requests[2]? = some r' ∧
        r'.stage = .ready ∧
        (oneWorker.performAll movedUp).requests[1]? = some q ∧ q.stage = .queued ∧
        r.rank.Precedes q.rank := by
  have hstart : start? (.sized 1) (.plain .normal) = .ok oneWorker := rfl
  have hprioritized := performAll_prioritized hstart movedUp
  have hreachable := (reachable_of_start? hstart).performAll movedUp
  have hordinals : (oneWorker.performAll movedUp).pool.queue.ordinals = [2, 1] := by cbv
  have hleaving : (oneWorker.performAll movedUp).requests[0]?.map Request.stage =
      some (.leaving (.fail .noResponse)) := by cbv
  obtain ⟨first, hfirst, hstage⟩ := Option.map_eq_some_iff.mp hleaving
  obtain ⟨r', hr', hready⟩ := hreachable.exists_promoted hfirst hstage hordinals
  have hwaits (n : Nat) := hreachable.placed.mem_ordinals (n := n) hreachable.sound.balanced
  rw [hordinals] at hwaits
  obtain ⟨r, hr, hqueued⟩ := (hwaits 2).mp (by simp)
  obtain ⟨q, hq, hqueued'⟩ := (hwaits 1).mp (by simp)
  exact ⟨hstart, r, r', q, hr, hqueued, hr', hready, hq, hqueued',
    hprioritized.promoted hr hqueued hr' hready hq hqueued' (by decide)⟩

end Scheduler

end Turnstile
