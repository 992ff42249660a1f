import Turnstile.Proofs.Scheduler.Containment
import Turnstile.Proofs.Scheduler.Stopped

/-!
# Shutdown

What becomes of everybody when the scheduler is stopped. Those who wait are refused one after the
other, in the order of service, and so is whoever asks for a slot later. Everybody else goes on as
if there had been no stop.

## Two runs of the same moves

The last is a statement about two runs of the same moves, one with the stop before them and one
without. `Scheduler.Beside` relates the two: the stopped scheduler has a beginning of the jobs of
the other, and whoever is not refused is the same in both. A move keeps this, since it does to a
request what its circumstances say (`Scheduler.Circumstances`), and those differ only for whoever
asks for a slot, who is then refused by the one that was stopped.
-/

namespace Turnstile

namespace Scheduler

open Request (report)

variable {σ : Type} {s t : Scheduler σ} {m : Move σ} {moves : List (Move σ)} {n : Nat}
  {r : Request σ}

/-! ## The stop -/

theorem getElem?_stop (hs : s.Numbered) (n : Nat) :
    s.stop.requests[n]? = s.requests[n]?.map fun r ↦
      if n ∈ s.pool.stop.1 then { r with stage := r.stage.dismissed } else r := by
  rw [stop_eq]
  refine restageAll_getElem? ?_ Request.dismissed_idem _ n
  exact ⟨hs.ordinal, hs.journal⟩

theorem history_stop (s : Scheduler σ) (n : Nat) : s.stop.history n = s.history n := by
  rw [stop_eq]
  exact history_congr restageAll_journal

theorem Placed.stop_queued (hp : s.Placed) (hs : s.Sound) (hrunning : s.pool.stopped = false)
    (hr : s.requests[n]? = some r) (hqueued : r.stage = .queued) :
    s.stop.requests[n]? = some { r with stage := .drained } := by
  have hmem := (hp.mem_ordinals hs.balanced).mpr ⟨r, hr, hqueued⟩
  rw [getElem?_stop hs.numbered, hr, Option.map_some, Pool.stop_of_running hrunning, if_pos hmem,
    hqueued]
  rfl

theorem placeOf?_stop {kind : Place → Bool} (hs : s.Numbered)
    (drain : kind .drain = true → kind .queue = true)
    (hkind : (s.stop.placeOf? n).any kind = true) : (s.placeOf? n).any kind = true := by
  rw [placeOf?, getElem?_stop hs] at hkind
  rw [placeOf?]
  cases hr : s.requests[n]? with
  | none =>
    rw [hr] at hkind
    exact hkind
  | some r =>
    rw [hr] at hkind
    simp only [Option.map_some, Option.any_some] at hkind ⊢
    split at hkind
    · rcases Request.dismissed_passes r.stage with hsame | ⟨hqueued, -⟩
      · rwa [hsame] at hkind
      · rw [hqueued] at hkind ⊢
        exact drain hkind
    · exact hkind

/-! ## With the stop and without -/

/-- The scheduler `t` was stopped and `s` is what it would be otherwise: whoever is not refused
because of the stop is the same in both. -/
structure Beside (s t : Scheduler σ) : Prop where
  hooks : t.hooks = s.hooks
  config : t.config = s.config
  size : t.requests.size = s.requests.size
  stopped : t.pool.stopped = true
  /-- Nobody got a slot after the stop. -/
  jobs : t.jobs <+: s.jobs
  request : ∀ {n : Nat}, t.dismissed n = false → t.requests[n]? = s.requests[n]?
  history : ∀ {n : Nat}, t.dismissed n = false → t.history n = s.history n
  permits : ∀ {n : Nat}, t.dismissed n = false → t.permits.count n = s.permits.count n

theorem beside_stop (hs : s.Numbered) : s.Beside s.stop := by
  refine {
    hooks := ?_, config := ?_, size := size_restageAll, stopped := stopped_stop s
    jobs := by rw [stop_eq, restageAll_jobs]
    request := ?request
    history := fun _ ↦ history_stop s _
    permits := fun _ ↦ by rw [stop_eq, restageAll_frame] }
  case request =>
    intro n hdismissed
    rw [dismissed, getElem?_stop hs] at hdismissed
    rw [getElem?_stop hs]
    cases hr : s.requests[n]? with
    | none => rfl
    | some r =>
      rw [hr, Option.map_some, Option.any_some] at hdismissed
      rw [Option.map_some]
      split
      next hmem =>
        -- only a request that waits changes, and it is then to be refused
        rcases Request.dismissed_passes r.stage with hsame | ⟨hqueued, -⟩
        · rw [hsame]
        · simp [hmem, hqueued, Stage.dismissed, Stage.refusedFor?, Stage.refusal?] at hdismissed
      · rfl
  all_goals rw [stop_eq, restageAll_frame]

namespace Beside

theorem head?_jobs (h : s.Beside t) (hjobs : t.jobs ≠ []) : t.jobs.head? = s.jobs.head? := by
  obtain ⟨rest, hrest⟩ := h.jobs
  rw [← hrest, List.head?_append_of_ne_nil _ hjobs]

theorem refusedFor?_ne (hr : t.requests[n]? = some r) (hserved : t.dismissed n = false) :
    r.stage.refusedFor? ≠ some .shutdown := by
  rw [dismissed, hr] at hserved
  simpa using hserved

variable [Exchange σ]

theorem jobs_perform (h : s.Beside t) (hs : s.Reachable) (ht : t.Reachable) (m : Move σ) :
    (t.perform m).jobs <+: (s.perform m).jobs := by
  obtain ⟨added, hadded, -⟩ := (hs.lists m).jobs
  obtain ⟨nobody, hnobody, hnone⟩ := (ht.lists m).jobs
  obtain rfl := hnone h.stopped
  rw [hadded, hnobody, List.append_nil]
  by_cases hjobs : t.jobs = []
  · rw [hjobs, List.drop_nil]
    exact List.nil_prefix
  · have hpicks : t.picks m = s.picks m := by
      cases m with
      | advance n => rw [picks, picks, h.head?_jobs hjobs]
      | _ => rfl
    rw [hpicks]
    exact (h.jobs.drop _).trans (List.prefix_append _ _)

/-- A request finds the same circumstances in both, unless it asks for a slot. -/
theorem perform_eq (h : s.Beside t) (ht : t.Reachable)
    (hr : t.requests[n]? = some r) (hserved : t.dismissed n = false)
    (hasks : ∀ (k : Nat) (admission : Admission), m = .advance k → r.stage ≠ admission.stage) :
    (t.circumstances r).perform r m = (s.circumstances r).perform r m := by
  have hordinal := ht.sound.numbered.ordinal hr
  refine Circumstances.perform_congr h.hooks h.config ?_ ?_ ?_
  · intro _ _ hready
    have hmem := (ht.placed.mem_jobs hr).mpr hready
    simp only [circumstances, h.head?_jobs (List.ne_nil_of_mem hmem)]
  · intro
    exact circumstances_opened (by rw [hordinal]; exact h.permits hserved)
  · intro k admission hm hstage
    exact absurd hstage (hasks k admission hm)

theorem ne_asking (h : s.Beside t) (ht : t.Reachable) (hm : m.target? = some n)
    (hr : t.requests[n]? = some r) (hserved : (t.perform m).dismissed n = false) :
    ∀ (k : Nat) (admission : Admission), m = .advance k → r.stage ≠ admission.stage := by
  rintro k admission rfl hstage
  have hself := (ht.affects hm hr).self
  rw [Circumstances.perform_of_asking _ hstage] at hself
  exact refusedFor?_ne hself hserved (congrArg Stage.refusedFor? (entry_of_stopped h.stopped r _))

theorem perform_self (h : s.Beside t) (hs : s.Reachable) (ht : t.Reachable)
    (hm : m.target? = some n) (hserved : t.dismissed n = false)
    (hserved' : (t.perform m).dismissed n = false) :
    (t.perform m).requests[n]? = (s.perform m).requests[n]? ∧
      (t.perform m).history n = (s.perform m).history n := by
  have hrequest := h.request hserved
  have hhistory := h.history hserved
  cases hr : t.requests[n]? with
  | none =>
    rw [hr] at hrequest
    obtain ⟨hrequests, hjournal⟩ := perform_of_missing hm hr
    obtain ⟨hrequests', hjournal'⟩ := perform_of_missing hm hrequest.symm
    rw [hrequests, hrequests', hr, history_congr hjournal, history_congr hjournal']
    exact ⟨hrequest, hhistory⟩
  | some r =>
    rw [hr] at hrequest
    have hafter := ht.affects hm hr
    have hafter' := hs.affects hm hrequest.symm
    have hsame := h.perform_eq ht hr hserved (h.ne_asking ht hm hr hserved')
    rw [hafter.self, hafter'.self, hafter.told, hafter'.told, hsame, hhistory]
    exact ⟨rfl, rfl⟩

theorem perform_other (h : s.Beside t) (hs : s.Reachable) (ht : t.Reachable)
    (hm : m.target? ≠ some n) (hserved : t.dismissed n = false) :
    (t.perform m).requests[n]? = (s.perform m).requests[n]? ∧
      (t.perform m).history n = (s.perform m).history n := by
  have hrequest := h.request hserved
  have hhistory := h.history hserved
  cases hr : t.requests[n]? with
  | some r =>
    rw [hr] at hrequest
    have hdrained : r.stage ≠ .drained := by
      intro hdrained
      refine refusedFor?_ne hr hserved ?_
      rw [hdrained]
      rfl
    have hqueued := ht.ne_queued_of_stopped h.stopped hr
    obtain ⟨r', hr', hrestaged, htold⟩ := ht.bystander hm hr hdrained
    obtain ⟨q', hq', hrestaged', htold'⟩ := hs.bystander hm hrequest.symm hdrained
    obtain rfl : r' = r := hrestaged.resolve_right fun hwaits ↦ hqueued hwaits.1
    obtain rfl : q' = r' := hrestaged'.resolve_right fun hwaits ↦ hqueued hwaits.1
    rw [hr', hq', htold, htold', hhistory]
    exact ⟨rfl, rfl⟩
  | none =>
    rw [hr] at hrequest
    by_cases harrival : m.isArrival = true
    · cases m with
      | arrive exchange program =>
        refine ⟨?_, hhistory⟩
        rw [perform, perform, Scheduler.arrive, Scheduler.arrive, Array.getElem?_push,
          Array.getElem?_push, h.size, h.hooks, h.config, hr, ← hrequest]
      | _ => cases harrival
    · obtain ⟨hafter, htold⟩ := ht.missing_perform hr fun harrives ↦ absurd harrives harrival
      obtain ⟨hafter', htold'⟩ :=
        hs.missing_perform hrequest.symm fun harrives ↦ absurd harrives harrival
      rw [hafter, hafter', htold, htold', hhistory]
      exact ⟨rfl, rfl⟩

theorem permits_perform (h : s.Beside t) (hs : s.Reachable) (ht : t.Reachable) (m : Move σ)
    (hserved : t.dismissed n = false) :
    (t.perform m).permits.count n = (s.perform m).permits.count n := by
  have hpasses : t.passes? m = some n ↔ s.passes? m = some n := by
    cases m with
    | advance k =>
      by_cases hk : k = n
      · rw [passes?, passes?, hk, h.request hserved]
      · constructor <;>
        · intro hpasses
          rw [passes?] at hpasses
          split at hpasses <;> cases hpasses
          exact absurd rfl hk
    | _ => exact Iff.rfl
  rw [(ht.lists m).count_permits, (hs.lists m).count_permits, h.permits hserved,
    if_congr hpasses rfl rfl]

theorem perform (h : s.Beside t) (hs : s.Reachable) (ht : t.Reachable) (m : Move σ) :
    (s.perform m).Beside (t.perform m) := by
  have hframe := (hs.change m).frame hs.sound.balanced
  have hframe' := (ht.change m).frame ht.sound.balanced
  have hbefore {n : Nat} (hserved : (t.perform m).dismissed n = false) : t.dismissed n = false := by
    refine Bool.eq_false_iff.mpr fun hdismissed ↦ ?_
    rw [ht.dismissed_perform hdismissed] at hserved
    cases hserved
  have hrequest {n : Nat} (hserved : (t.perform m).dismissed n = false) :
      (t.perform m).requests[n]? = (s.perform m).requests[n]? ∧
        (t.perform m).history n = (s.perform m).history n := by
    by_cases hm : m.target? = some n
    · exact h.perform_self hs ht hm (hbefore hserved) hserved
    · exact h.perform_other hs ht hm (hbefore hserved)
  exact {
    hooks := by rw [hframe'.2, hframe.2, h.hooks]
    config := by rw [hframe'.1, hframe.1, h.config]
    size := by rw [ht.size_perform, hs.size_perform, h.size]
    stopped := ((ht.change m).of_stopped ht.sound.balanced h.stopped).1
    jobs := h.jobs_perform hs ht m
    request := fun hserved ↦ (hrequest hserved).1
    history := fun hserved ↦ (hrequest hserved).2
    permits := fun hserved ↦ h.permits_perform hs ht m (hbefore hserved) }

theorem performAll (h : s.Beside t) (hs : s.Reachable) (ht : t.Reachable)
    (moves : List (Move σ)) : (s.performAll moves).Beside (t.performAll moves) := by
  induction moves generalizing s t with
  | nil => exact h
  | cons m moves ih => exact ih (h.perform hs ht m) (hs.move m) (ht.move m)

end Beside

/-! ## After every run -/

/-- The request with an ordinal was accepted and has not left. -/
def isInside (s : Scheduler σ) (n : Nat) : Bool := (s.placeOf? n).any Place.inside

theorem Accounted.none_inside (ha : s.Accounted) (hp : s.Placed)
    (hnobody : ∀ n, s.isInside n = false) :
    s.pool.live = 0 ∧ s.pool.queue.size = 0 ∧ s.pool.outstanding = 0 := by
  have houtstanding : s.pool.outstanding = 0 :=
    hp.outstanding.trans (population_eq_zero hnobody)
  have hidle := ha.idle.mpr houtstanding
  rw [isIdle, Pool.isIdle, Bool.and_eq_true, Bool.and_eq_true, decide_eq_true_eq] at hidle
  refine ⟨hidle.1.1, ?_, houtstanding⟩
  have hempty := hidle.1.2
  rw [Queue.isEmpty, Std.TreeMap.isEmpty_eq_size_eq_zero] at hempty
  exact beq_iff_eq.mp hempty

variable [Exchange σ]

/-- What the stop of the scheduler `s` does to everybody, when some moves have been made since and
have led to `t`. -/
structure ShutDown (s : Scheduler σ) (moves : List (Move σ)) (t : Scheduler σ) : Prop where
  /-- Those in the queue at the stop are all who wait. -/
  waited : ∀ n, n ∈ s.pool.queue.ordinals ↔ ∃ r, s.requests[n]? = some r ∧ r.stage = .queued
  /-- Nobody is in it twice. -/
  once : s.pool.queue.ordinals.Nodup
  /-- They are in the order of service. -/
  order : s.pool.queue.ordinals.Pairwise fun n k ↦ ∀ {r q : Request σ},
    s.requests[n]? = some r → s.requests[k]? = some q → r.rank.Precedes q.rank
  /-- They are refused one after the other in this order. -/
  refused : ∀ n ∈ s.pool.queue.ordinals.take (moves.countP Move.isDrain), Refused s t n
  /-- The others of them rest until it is their turn. -/
  remaining : ∀ n ∈ s.pool.queue.ordinals.drop (moves.countP Move.isDrain), Rests s t n .drained
  /-- Nobody waits any more. -/
  empty : t.pool.queue.size = 0 ∧ ∀ {n : Nat} {r : Request σ}, t.requests[n]? = some r →
    r.stage ≠ .queued
  /-- The slots taken become fewer only. -/
  live : t.pool.live ≤ s.pool.live ∧
    ∀ later : List (Move σ), (t.performAll later).pool.live ≤ t.pool.live
  /-- Nobody gets a slot who had none. -/
  slots : ∀ n, t.onSlot n = true → s.onSlot n = true
  /-- Every submission is refused, and its program does not run. -/
  submits : ∀ (exchange : σ) (program : Program),
    (t.submit exchange program).1 = .error .shutdown ∧
      ∀ later : List (Move σ), ((t.submit exchange program).2.performAll later).history
          t.requests.size =
        [report t.hooks (.rejected t.requests.size Refusal.shutdown.message),
          .call (.reject .shutdown (Exchange.reject exchange .shutdown).1)]
  /-- Whoever asks for a slot, also with its body, is refused with two moves of its own, and rests
  until then: its program does not go on. -/
  asks : ∀ {n : Nat} {r : Request σ}, t.requests[n]? = some r →
    r.stage = .arriving ∨ r.stage = .returning → ∀ later : List (Move σ),
    Refused t (t.performAll later) n ∨
      later.countP (Move.isOwn n) < 2 ∧ ∃ stage, Rests t (t.performAll later) n stage
  /-- Whoever did not wait at the stop, and has not asked for a slot since, is what it would be
  without the stop. -/
  goesOn : ∀ {n : Nat}, (∀ r, s.requests[n]? = some r → r.stage ≠ .queued) →
    (∀ earlier, earlier <+: moves → ∀ r, (s.stop.performAll earlier).requests[n]? = some r →
      r.stage ≠ .arriving ∧ r.stage ≠ .returning) →
    t.requests[n]? = (s.performAll moves).requests[n]? ∧
      t.history n = (s.performAll moves).history n
  /-- Whoever's program was over at the stop is answered as it would be without the stop. -/
  answers : ∀ {n : Nat} {r : Request σ}, s.requests[n]? = some r → r.stage.isAnswering = true →
    t.requests[n]? = (s.performAll moves).requests[n]? ∧
      t.history n = (s.performAll moves).history n
  /-- When nothing can move, whoever is still inside waits for the transport or at a gate that
  nobody has opened, or the transport has forgotten it. -/
  settled : t.next? = none → ∀ n, t.isInside n = true → ∃ r, t.requests[n]? = some r ∧
    (r.isWaiting = true ∧ r.nextEvent? = none ∨ r.stage = .gated ∧ n ∉ t.permits ∨
      r.stage = .lost)
  /-- Once all who were inside at the stop have left nobody is counted. -/
  left : (∀ n, s.isInside n = true → t.isInside n = false) →
    t.pool.live = 0 ∧ t.pool.queue.size = 0 ∧ t.pool.outstanding = 0
  /-- Another stop changes nothing. -/
  again : t.perform .stop = t

/-- When nothing can move in a stopped scheduler, whoever is inside waits for somebody outside. -/
theorem Reachable.settled_of_stopped (h : s.Reachable) (hstopped : s.pool.stopped = true)
    (hnext : s.next? = none) (hinside : s.isInside n = true) :
    ∃ r, s.requests[n]? = some r ∧
      (r.isWaiting = true ∧ r.nextEvent? = none ∨ r.stage = .gated ∧ n ∉ s.permits ∨
        r.stage = .lost) := by
  obtain ⟨place, hplace, hinside⟩ := (Option.any_eq_true _ _).mp hinside
  obtain ⟨r, hr, rfl⟩ := Option.map_eq_some_iff.mp hplace
  refine ⟨r, hr, ?_⟩
  rcases h.settled hnext hr with hgone | hwaits | hgated | ⟨hqueued, -⟩ | hlost
  · cases hstage : r.stage with
    | gone ending => exact absurd hstage ((inside_iff.mp hinside).2.2 ending)
    | _ => rw [hstage] at hgone; cases hgone
  · exact .inl hwaits
  · exact .inr (.inl hgated)
  · exact absurd hqueued (h.ne_queued_of_stopped hstopped hr)
  · exact .inr (.inr hlost)

/-- The requests taken out of the queue by the stop are refused in the order of service. -/
theorem Reachable.refusedInOrder (h : s.Reachable) (hrunning : s.pool.stopped = false)
    (moves : List (Move σ)) :
    (∀ n ∈ s.pool.queue.ordinals.take (moves.countP Move.isDrain),
        Refused s (s.stop.performAll moves) n) ∧
      ∀ n ∈ s.pool.queue.ordinals.drop (moves.countP Move.isDrain),
        Rests s (s.stop.performAll moves) n .drained := by
  have hstop : s.stop.Reachable := h.move .stop
  have hstopped := stopped_stop s
  have hdraining : (s.stop.performAll moves).draining =
      s.pool.queue.ordinals.drop (moves.countP Move.isDrain) := by
    rw [hstop.draining_performAll hstopped, stop_eq, restageAll_draining,
      h.draining_of_running hrunning, Pool.stop_of_running hrunning, List.nil_append]
  have hcourse {n : Nat} (hn : n ∈ s.pool.queue.ordinals) :
      n ∈ (s.stop.performAll moves).draining ∧ Rests s (s.stop.performAll moves) n .drained ∨
        n ∉ (s.stop.performAll moves).draining ∧ Refused s (s.stop.performAll moves) n := by
    obtain ⟨r, hr, hqueued⟩ := (h.placed.mem_ordinals h.sound.balanced).mp hn
    have htaken := h.placed.stop_queued h.sound hrunning hr hqueued
    have hrests : Rests s s.stop n .drained := ⟨r, _, hr, htaken, rfl, rfl, history_stop s n⟩
    exact (hstop.drained htaken rfl moves).imp (And.imp_right hrests.trans)
      (And.imp_right (hrests.refused (beside_stop h.sound.numbered).hooks))
  rw [hdraining] at hcourse
  have hnodup := h.sound.balanced.synced.nodup_ordinals
  constructor
  · intro n hn
    refine ((hcourse (List.mem_of_mem_take hn)).resolve_left ?_).2
    rintro ⟨hrest, -⟩
    exact List.disjoint_take_drop hnodup (Nat.le_refl _) hn hrest
  · intro n hn
    exact ((hcourse (List.mem_of_mem_drop hn)).resolve_right fun hnot ↦ hnot.1 hn).2

/-- Whoever did not wait at the stop is not refused because of it, unless it has asked for a slot
since. -/
theorem Reachable.dismissed_of_goesOn (h : s.Reachable) (hrunning : s.pool.stopped = false)
    (hwaits : ∀ r, s.requests[n]? = some r → r.stage ≠ .queued)
    (hasks : ∀ earlier, earlier <+: moves → ∀ r, (s.stop.performAll earlier).requests[n]? = some r →
      r.stage ≠ .arriving ∧ r.stage ≠ .returning) :
    (s.stop.performAll moves).dismissed n = false := by
  have hstop : s.stop.Reachable := h.move .stop
  have hbefore : s.stop.dismissed n = false := by
    refine Bool.eq_false_iff.mpr fun hdismissed ↦ ?_
    obtain ⟨r, hr, ⟨hqueued, -⟩ | ⟨hstopped, -⟩⟩ :=
      h.of_dismissed (h.dismissed_of_running hrunning n) (m := .stop) hdismissed
    · exact hwaits r hr hqueued
    · rw [hrunning] at hstopped
      cases hstopped
  refine Bool.eq_false_iff.mpr fun hdismissed ↦ ?_
  obtain ⟨earlier, hprefix, r, hr, hstage⟩ :=
    hstop.exists_asking (stopped_stop s) hbefore hdismissed
  obtain ⟨harriving, hreturning⟩ := hasks earlier hprefix r hr
  exact hstage.elim harriving hreturning

theorem Reachable.dismissed_of_isAnswering (h : s.Reachable) (hr : s.requests[n]? = some r)
    (hanswering : r.stage.isAnswering = true) (moves : List (Move σ)) :
    (s.stop.performAll moves).dismissed n = false := by
  have hlast : s.stop.performAll moves = s.performAll (.stop :: moves) := rfl
  obtain ⟨r', told, hr', -, hrun⟩ := h.run_performAll (.stop :: moves) hr
  rw [hlast, dismissed, hr', Option.any_some,
    Stage.refusedFor?_of_isAnswering (hrun.isAnswering hanswering)]
  rfl

theorem Reachable.shutDown (h : s.Reachable) (hrunning : s.pool.stopped = false)
    (moves : List (Move σ)) : ShutDown s moves (s.stop.performAll moves) := by
  have hs := h.sound
  have hstop : s.stop.Reachable := h.move .stop
  have hstopped := stopped_stop s
  have hreachable := hstop.performAll moves
  obtain ⟨hstopped', hlive⟩ := hstop.of_stopped hstopped moves
  have hbeside := (beside_stop hs.numbered).performAll h hstop moves
  obtain ⟨hrefused, hremaining⟩ := h.refusedInOrder hrunning moves
  -- nobody comes to a place of a kind after the stop who was not there before
  have hplace {kind : Place → Bool} {n : Nat} (outside : kind .outside = false)
      (worker : kind .worker = true → kind .job = true)
      (away : kind .away = true → kind .worker = true)
      (drain : kind .drain = true → kind .queue = true)
      (hkind : ((s.stop.performAll moves).placeOf? n).any kind = true) :
      (s.placeOf? n).any kind = true :=
    placeOf?_stop hs.numbered drain
      (hstop.placeOf?_of_stopped hstopped outside worker away moves hkind)
  refine {
    waited := fun n ↦ h.placed.mem_ordinals hs.balanced
    once := hs.balanced.synced.nodup_ordinals
    order := h.placed.precedes_ordinals hs
    refused := hrefused
    remaining := hremaining
    empty := ⟨hreachable.sound.balanced.size_of_stopped hstopped',
      hreachable.ne_queued_of_stopped hstopped'⟩
    live := ⟨?live, fun later ↦ (hreachable.of_stopped hstopped' later).2⟩
    slots := ?slots
    submits := fun exchange program ↦ ?submits
    asks := ?asks
    goesOn := fun hwaits hasks ↦ ?goesOn
    answers := fun hr hanswering ↦ ?answers
    settled := fun hnext n ↦ hreachable.settled_of_stopped hstopped' hnext
    left := ?left
    again := stop_of_stopped hstopped' }
  case live =>
    refine hlive.trans (Nat.le_of_eq ?_)
    rw [stop_eq, restageAll_pool, Pool.stop_of_running hrunning]
  case slots =>
    intro n hslot
    rw [hreachable.placed.onSlot_iff, ← Option.any_eq_true] at hslot
    rw [h.placed.onSlot_iff, ← Option.any_eq_true]
    exact hplace rfl (fun _ ↦ rfl) (fun hfalse ↦ nomatch hfalse) (fun hfalse ↦ nomatch hfalse) hslot
  case submits =>
    have hobjection : (s.stop.performAll moves).pool.objection? = some .shutdown :=
      hreachable.objection?_eq_some_iff.mpr (.inl ⟨rfl, hstopped'⟩)
    exact ⟨(hreachable.fails_iff exchange program).mpr hobjection,
      hreachable.turnsAway exchange program hobjection⟩
  case asks =>
    intro n r hr hstage later
    obtain ⟨admission, hadmission⟩ : ∃ admission : Admission, r.stage = admission.stage := by
      rcases hstage with hstage | hstage
      · exact ⟨.fresh, hstage⟩
      · exact ⟨.resumed, hstage⟩
    exact hreachable.refused_of_asking hstopped' hr hadmission later
  case goesOn =>
    have hserved := h.dismissed_of_goesOn hrunning hwaits hasks
    exact ⟨hbeside.request hserved, hbeside.history hserved⟩
  case answers =>
    have hserved := h.dismissed_of_isAnswering hr hanswering moves
    exact ⟨hbeside.request hserved, hbeside.history hserved⟩
  case left =>
    intro hleft
    refine hreachable.accounted.none_inside hreachable.placed fun n ↦ ?_
    refine Bool.eq_false_iff.mpr fun hinside ↦ ?_
    have hbefore : s.isInside n = true :=
      hplace rfl (fun _ ↦ rfl) (fun _ ↦ rfl) (fun _ ↦ rfl) hinside
    rw [hleft n hbefore] at hinside
    cases hinside

/-- Whatever happened before the stop of a scheduler and whatever follows it: those who wait are
refused in the order of service, whoever asks for a slot later is refused too, and the others go on
as if there had been no stop, until nobody is left. -/
theorem performAll_shutDown {config : Config} {hooks : Hooks} (h : start? config hooks = .ok s)
    (before : List (Move σ)) (hrunning : (s.performAll before).pool.stopped = false)
    (moves : List (Move σ)) :
    ShutDown (s.performAll before) moves (s.performAll (before ++ .stop :: moves)) := by
  rw [performAll_append]
  exact ((reachable_of_start? h).performAll before).shutDown hrunning moves

/-- With one request on the only slot and another in the queue, the stop refuses the second, and
then nobody else is let in. -/
theorem performAll_shutDown_pickedUp :
    ∃ s : Scheduler Scripted, start? (.sized 1) (.plain .normal) = .ok s ∧
      Refused (s.performAll pickedUp) (s.performAll (pickedUp ++ [.stop, .drain])) 1 ∧
      ((s.performAll (pickedUp ++ [.stop, .drain])).submit (.new default) (.pure .unit)).1 =
        .error .shutdown := by
  have hstart : start? (.sized 1) (.plain .normal) =
      .ok (new (.sized 1) (.plain .normal) : Scheduler Scripted) := rfl
  have hordinals : ((new (.sized 1) (.plain .normal) : Scheduler Scripted).performAll
      pickedUp).pool.queue.ordinals = [1] := by cbv
  have hshutDown := performAll_shutDown hstart pickedUp (by cbv) [.drain]
  refine ⟨_, hstart, hshutDown.refused 1 ?_, (hshutDown.submits _ _).1⟩
  rw [hordinals]
  exact List.mem_singleton.mpr rfl

end Scheduler

end Turnstile
