import Turnstile.Proofs.Pool.Balance
import Turnstile.Proofs.Request.Place
import Turnstile.Proofs.Scheduler.State

/-!
# Everybody in one place

The queue, the list of jobs and the list of those taken out of the queue name requests by their
ordinals, the counters of the pool only count them, and each request has a stage of its own.
`Scheduler.Placed` says that all of these agree: the stage of a request tells where it is named,
and the counters are the numbers of requests at the places.

## Keeping the agreement

A move of one request keeps the agreement if the lists and counters change by what that request
leaves and enters (`Placed.shift`); the promotion loop and the stop move several requests at once
(`Placed.promote`, `Placed.dismiss`).
-/

namespace Turnstile

/-- The class that a request waits in, if it is in the queue. -/
def Request.waitsAs? {σ : Type} (r : Request σ) : Option Qos :=
  if r.stage.place = .queue then some r.dossier.qos else none

theorem toNat_eq_ite (b : Bool) : b.toNat = if b = true then 1 else 0 := by cases b <;> rfl

theorem Stage.place_eq_queue {stage : Stage} : stage.place = .queue ↔ stage = .queued := by
  constructor
  · intro h
    unfold Stage.place at h
    split at h <;> first | rfl | cases h
  · rintro rfl
    rfl

theorem Stage.place_eq_job {stage : Stage} : stage.place = .job ↔ stage = .ready := by
  constructor
  · intro h
    unfold Stage.place at h
    split at h <;> first | rfl | cases h
  · rintro rfl
    rfl

theorem Stage.place_eq_drain {stage : Stage} : stage.place = .drain ↔ stage = .drained := by
  constructor
  · intro h
    unfold Stage.place at h
    split at h <;> first | rfl | cases h
  · rintro rfl
    rfl

namespace Scheduler

variable {σ : Type} {s : Scheduler σ} {n : Nat} {r r' : Request σ} {told : List Happening}

/-- Where the request with an ordinal is, if it has arrived. -/
def placeOf? (s : Scheduler σ) (n : Nat) : Option Place := s.requests[n]?.map (·.stage.place)

/-- How many requests are at a place of some kind. -/
def population (s : Scheduler σ) (kind : Place → Bool) : Nat := s.count fun stage ↦ kind stage.place

theorem population_eq_zero {kind : Place → Bool} (h : ∀ n, (s.placeOf? n).any kind = false) :
    s.population kind = 0 := by
  rw [population, count, Array.countP_eq_zero]
  intro r hr hkind
  obtain ⟨n, hn⟩ := Array.getElem?_of_mem hr
  have hnot := h n
  rw [placeOf?, hn, Option.map_some, Option.any_some, hkind] at hnot
  cases hnot

/-- Stages, lists and counters agree. -/
structure Placed (s : Scheduler σ) : Prop where
  /-- The queue names those who wait, each in its class. -/
  queue : ∀ n : Nat, s.pool.queue.index[n]? = s.requests[n]?.bind Request.waitsAs?
  /-- The jobs are those on a slot that no worker has picked up. -/
  jobs : ∀ n, n ∈ s.jobs ↔ s.placeOf? n = some .job
  /-- Nobody is named twice among the jobs. -/
  nodup_jobs : s.jobs.Nodup
  /-- Those to be refused after the stop are those taken out of the queue. -/
  draining : ∀ n, n ∈ s.draining ↔ s.placeOf? n = some .drain
  /-- Nobody is named twice among them. -/
  nodup_draining : s.draining.Nodup
  /-- The length of the queue is the number of those in it. -/
  size : s.pool.queue.size = s.population Place.waiting
  /-- The slots taken are those of the requests on a slot. -/
  live : s.pool.live = s.population Place.onSlot
  /-- The requests accepted and not gone are those at a place inside. -/
  outstanding : s.pool.outstanding = s.population Place.inside

theorem placed_new (config : Config) (hooks : Hooks) : (new config hooks : Scheduler σ).Placed where
  queue := by simp [new, Pool.empty, Queue.empty]
  jobs := by simp [new, placeOf?]
  nodup_jobs := .nil
  draining := by simp [new, placeOf?]
  nodup_draining := .nil
  size := rfl
  live := rfl
  outstanding := rfl

theorem Placed.queued (hp : s.Placed) {qos : Qos} (h : s.pool.queue.index[n]? = some qos) :
    ∃ r, s.requests[n]? = some r ∧ r.stage = .queued ∧ r.dossier.qos = qos := by
  rw [hp.queue] at h
  obtain ⟨r, hr, hqos⟩ := Option.bind_eq_some_iff.mp h
  unfold Request.waitsAs? at hqos
  split at hqos
  next hplace => exact ⟨r, hr, Stage.place_eq_queue.mp hplace, Option.some.inj hqos⟩
  · cases hqos

theorem Placed.mem_jobs (hp : s.Placed) (hr : s.requests[n]? = some r) :
    n ∈ s.jobs ↔ r.stage = .ready := by
  rw [hp.jobs, placeOf?, hr, Option.map_some, Option.some_inj, Stage.place_eq_job]

theorem Placed.mem_draining (hp : s.Placed) (hr : s.requests[n]? = some r) :
    n ∈ s.draining ↔ r.stage = .drained := by
  rw [hp.draining, placeOf?, hr, Option.map_some, Option.some_inj, Stage.place_eq_drain]

theorem population_put {r₀ : Request σ} (h : s.requests[r.ordinal]? = some r₀)
    (kind : Place → Bool) :
    (s.put r).population kind + (kind r₀.stage.place).toNat =
      s.population kind + (kind r.stage.place).toNat := by
  have hcount := count_put h fun stage ↦ kind stage.place
  simpa only [population, toNat_eq_ite] using hcount

theorem placeOf?_put (h : r.ordinal < s.requests.size) :
    (s.put r).placeOf? n = if r.ordinal = n then some r.stage.place else s.placeOf? n := by
  rw [placeOf?, put_getElem? h]
  split
  · rfl
  · rfl

/-- One request moves: lists and counters change by what it leaves and what it enters. -/
theorem Placed.shift {pool : Pool} {jobs draining permits : List Nat} (hp : s.Placed)
    (hs : s.Numbered) (hr : s.requests[n]? = some r) (ho : r'.ordinal = r.ordinal)
    (hqueue : ∀ k, pool.queue.index[k]? =
      if k = n then r'.waitsAs? else s.pool.queue.index[k]?)
    (hjobs : ∀ k, k ∈ jobs ↔ if k = n then r'.stage.place = .job else k ∈ s.jobs)
    (hnodup : jobs.Nodup)
    (hdraining : ∀ k, k ∈ draining ↔ if k = n then r'.stage.place = .drain else k ∈ s.draining)
    (hnodup' : draining.Nodup)
    (hsize : pool.queue.size + r.stage.place.waiting.toNat =
      s.pool.queue.size + r'.stage.place.waiting.toNat)
    (hlive : pool.live + r.stage.place.onSlot.toNat = s.pool.live + r'.stage.place.onSlot.toNat)
    (hout : pool.outstanding + r.stage.place.inside.toNat =
      s.pool.outstanding + r'.stage.place.inside.toNat) :
    ({ s with pool, jobs, draining, permits }.absorb (r', told)).Placed := by
  have hn : r'.ordinal = n := ho.trans (hs.ordinal hr)
  have hlt : r'.ordinal < s.requests.size := hn ▸ lt_size hr
  have hrn : s.requests[r'.ordinal]? = some r := hn ▸ hr
  have hplace (k : Nat) : (s.put r').placeOf? k =
      if k = n then some r'.stage.place else s.placeOf? k := by
    rw [placeOf?_put hlt, hn]
    simp only [eq_comm]
  -- the counters are natural numbers, so both sides say what is added and nothing is subtracted
  have hpop (kind : Place → Bool) := population_put hrn kind
  exact {
    queue := by
      intro k
      refine (hqueue k).trans ?_
      change _ = (s.put r').requests[k]?.bind _
      rw [put_getElem? hlt, hn]
      simp only [@eq_comm _ n k]
      split
      · rfl
      · exact hp.queue k
    jobs := by
      intro k
      refine (hjobs k).trans ?_
      change _ ↔ (s.put r').placeOf? k = _
      rw [hplace]
      split
      · exact Option.some_inj.symm
      · exact hp.jobs k
    nodup_jobs := hnodup
    draining := by
      intro k
      refine (hdraining k).trans ?_
      change _ ↔ (s.put r').placeOf? k = _
      rw [hplace]
      split
      · exact Option.some_inj.symm
      · exact hp.draining k
    nodup_draining := hnodup'
    size := by
      have := hpop Place.waiting
      have hold := hp.size
      change pool.queue.size = (s.put r').population Place.waiting
      omega
    live := by
      have := hpop Place.onSlot
      have hold := hp.live
      change pool.live = (s.put r').population Place.onSlot
      omega
    outstanding := by
      have := hpop Place.inside
      have hold := hp.outstanding
      change pool.outstanding = (s.put r').population Place.inside
      omega }

theorem Placed.queue_same (hp : s.Placed) (hr : s.requests[n]? = some r)
    (h : r'.waitsAs? = r.waitsAs?) (k : Nat) :
    s.pool.queue.index[k]? = if k = n then r'.waitsAs? else s.pool.queue.index[k]? := by
  split
  next hk => rw [hk, hp.queue, hr, Option.bind_some, h]
  · rfl

theorem Placed.jobs_same (hp : s.Placed) (hr : s.requests[n]? = some r)
    (h : r'.stage.place = .job ↔ r.stage.place = .job) (k : Nat) :
    k ∈ s.jobs ↔ if k = n then r'.stage.place = .job else k ∈ s.jobs := by
  split
  next hk => rw [hk, hp.jobs, placeOf?, hr, Option.map_some, Option.some_inj, h]
  · rfl

theorem Placed.draining_same (hp : s.Placed) (hr : s.requests[n]? = some r)
    (h : r'.stage.place = .drain ↔ r.stage.place = .drain) (k : Nat) :
    k ∈ s.draining ↔ if k = n then r'.stage.place = .drain else k ∈ s.draining := by
  split
  next hk => rw [hk, hp.draining, placeOf?, hr, Option.map_some, Option.some_inj, h]
  · rfl

theorem Placed.keep {p : Pool} {permits : List Nat} (hp : s.Placed) (hs : s.Numbered)
    (hr : s.requests[n]? = some r) (h : Request.Kept r r') (hqueue : p.queue = s.pool.queue)
    (hlive : p.live = s.pool.live) (hout : p.outstanding = s.pool.outstanding) :
    ({ s with pool := p, permits }.absorb (r', told)).Placed := by
  refine hp.shift hs hr h.ordinal ?_ ?_ hp.nodup_jobs ?_ hp.nodup_draining ?_ ?_ ?_
  · rw [hqueue]
    refine hp.queue_same hr ?_
    unfold Request.waitsAs?
    rw [h.place]
    split
    next hplace => rw [h.qos (Stage.place_eq_queue.mp hplace)]
    · rfl
  · exact hp.jobs_same hr (by rw [h.place])
  · exact hp.draining_same hr (by rw [h.place])
  · rw [h.place, hqueue]
  · rw [h.place, hlive]
  · rw [h.place, hout]

/-! ## Several requests at once -/

theorem population_restageAll (change : Stage → Stage) {ordinals : List Nat} (hs : s.Numbered)
    (hnodup : ordinals.Nodup)
    (hqueued : ∀ n ∈ ordinals, ∃ r, s.requests[n]? = some r ∧ r.stage = .queued)
    (kind : Place → Bool) :
    (s.restageAll change ordinals).population kind + ordinals.length * (kind .queue).toNat =
      s.population kind + ordinals.length * (kind (change .queued).place).toNat := by
  induction ordinals generalizing s with
  | nil => simp
  | cons n ordinals ih =>
    obtain ⟨hn, hrest⟩ := List.nodup_cons.mp hnodup
    obtain ⟨r, hr, hstage⟩ := hqueued n (by simp)
    have hrn : r.ordinal = n := hs.ordinal hr
    have hput : s.restage change n = s.put { r with stage := change r.stage } := by
      rw [restage, hr]
    have hone := population_put (s := s) (r := { r with stage := change r.stage })
      (by rw [hrn]; exact hr) kind
    have hs' : (s.restage change n).Numbered := hs.restage n
    have hmore := ih hs' hrest fun k hk ↦ by
      obtain ⟨r', hr', hstage'⟩ := hqueued k (List.mem_cons_of_mem n hk)
      have hkn : k ≠ n := fun h ↦ hn (h ▸ hk)
      exact ⟨r', by rw [restage_getElem? hs, hr']; simp [hkn], hstage'⟩
    rw [restageAll_cons, List.length_cons, Nat.add_mul, Nat.add_mul]
    have hplace : Stage.queued.place = .queue := rfl
    rw [hput] at hmore ⊢
    simp only [hstage, hplace] at hone hmore ⊢
    omega

theorem placeOf?_restageAll {change : Stage → Stage} {ordinals : List Nat} (hs : s.Numbered)
    (idem : ∀ stage, change (change stage) = change stage)
    (hqueued : ∀ n ∈ ordinals, ∃ r, s.requests[n]? = some r ∧ r.stage = .queued) (n : Nat) :
    (s.restageAll change ordinals).placeOf? n =
      if n ∈ ordinals then some (change .queued).place else s.placeOf? n := by
  rw [placeOf?, restageAll_getElem? hs idem, Option.map_map]
  split
  next hn =>
    obtain ⟨r, hr, hstage⟩ := hqueued n hn
    rw [hr]
    simp [hstage]
  · rfl

theorem waitsAs?_restageAll {change : Stage → Stage} {ordinals : List Nat} (hs : s.Numbered)
    (idem : ∀ stage, change (change stage) = change stage)
    (hchange : (change .queued).place ≠ .queue)
    (hqueued : ∀ n ∈ ordinals, ∃ r, s.requests[n]? = some r ∧ r.stage = .queued) (n : Nat) :
    (s.restageAll change ordinals).requests[n]?.bind Request.waitsAs? =
      if n ∈ ordinals then none else s.requests[n]?.bind Request.waitsAs? := by
  rw [restageAll_getElem? hs idem]
  split
  next hn =>
    obtain ⟨r, hr, hstage⟩ := hqueued n hn
    rw [hr, Option.map_some, Option.bind_some, Request.waitsAs?]
    exact if_neg (by rw [hstage]; exact hchange)
  · simp

/-- Waiting requests move on together: lists and counters change by those who move on. -/
theorem Placed.restageAll {change : Stage → Stage} {ordinals : List Nat} {pool : Pool}
    {jobs draining : List Nat} (hp : s.Placed) (hs : s.Numbered)
    (idem : ∀ stage, change (change stage) = change stage)
    (hchange : (change .queued).place ≠ .queue) (hinside : (change .queued).place ≠ .outside)
    (hnodup : ordinals.Nodup) (hwaited : ∀ n ∈ ordinals, ∃ qos, s.pool.queue.index[n]? = some qos)
    (hqueue : ∀ k, pool.queue.index[k]? =
      if k ∈ ordinals then none else s.pool.queue.index[k]?)
    (hjobs : ∀ k, k ∈ jobs ↔ if k ∈ ordinals then (change .queued).place = .job else k ∈ s.jobs)
    (hnodup_jobs : jobs.Nodup)
    (hdraining : ∀ k, k ∈ draining ↔
      if k ∈ ordinals then (change .queued).place = .drain else k ∈ s.draining)
    (hnodup_draining : draining.Nodup)
    (hsize : pool.queue.size + ordinals.length = s.pool.queue.size)
    (hlive : pool.live =
      s.pool.live + ordinals.length * (change .queued).place.onSlot.toNat)
    (hout : pool.outstanding = s.pool.outstanding) :
    ({ s with pool, jobs, draining }.restageAll change ordinals).Placed := by
  -- whoever is named in the index waits by its stage, so the change is made to a waiting request
  have hqueued (n : Nat) (hn : n ∈ ordinals) :
      ∃ r, s.requests[n]? = some r ∧ r.stage = .queued := by
    obtain ⟨qos, hqos⟩ := hwaited n hn
    obtain ⟨r, hr, hstage, -⟩ := hp.queued hqos
    exact ⟨r, hr, hstage⟩
  have ht : Numbered { s with pool, jobs, draining } := ⟨hs.ordinal, hs.journal⟩
  have hplace := placeOf?_restageAll ht idem hqueued
  have hpop (kind : Place → Bool) :
      ({ s with pool, jobs, draining }.restageAll change ordinals).population kind +
          ordinals.length * (kind .queue).toNat =
        s.population kind + ordinals.length * (kind (change .queued).place).toNat :=
    population_restageAll change ht hnodup hqueued kind
  have hwaiting : Place.waiting (change .queued).place = false := by
    cases h : (change .queued).place <;> first | rfl | exact absurd h hchange
  have hin : Place.inside (change .queued).place = true := by
    cases h : (change .queued).place <;> first | rfl | exact absurd h hinside
  exact {
    queue := by
      intro k
      rw [restageAll_pool, waitsAs?_restageAll ht idem hchange hqueued]
      refine (hqueue k).trans ?_
      rw [hp.queue k]
    jobs := by
      intro k
      rw [restageAll_jobs, hplace]
      refine (hjobs k).trans ?_
      split
      · exact Option.some_inj.symm
      · exact hp.jobs k
    nodup_jobs := by
      rw [restageAll_jobs]
      exact hnodup_jobs
    draining := by
      intro k
      rw [restageAll_draining, hplace]
      refine (hdraining k).trans ?_
      split
      · exact Option.some_inj.symm
      · exact hp.draining k
    nodup_draining := by
      rw [restageAll_draining]
      exact hnodup_draining
    size := by
      have hmoved := hpop Place.waiting
      have hold := hp.size
      rw [hwaiting, Place.waiting, Bool.toNat_true, Bool.toNat_false] at hmoved
      rw [restageAll_pool]
      dsimp only
      omega
    live := by
      have hmoved := hpop Place.onSlot
      have hold := hp.live
      have hslot : Place.onSlot .queue = false := rfl
      rw [hslot, Bool.toNat_false] at hmoved
      rw [restageAll_pool]
      dsimp only
      omega
    outstanding := by
      have hmoved := hpop Place.inside
      have hold := hp.outstanding
      have hqueue : Place.inside .queue = true := rfl
      rw [hin, hqueue] at hmoved
      rw [restageAll_pool]
      dsimp only
      omega }

theorem Placed.placeOf?_of_index (hp : s.Placed) {qos : Qos}
    (h : s.pool.queue.index[n]? = some qos) : s.placeOf? n = some .queue := by
  obtain ⟨r, hr, hstage, -⟩ := hp.queued h
  rw [placeOf?, hr, Option.map_some, hstage]
  rfl

theorem Placed.promote {o : Pool.Promotion} (hp : s.Placed) (hs : s.Numbered)
    (ho : s.pool.Promoted o) :
    ({ s with pool := o.pool, jobs := s.jobs ++ o.promoted }.restageAll Stage.promoted
      o.promoted).Placed := by
  have hqueue (n : Nat) (hn : n ∈ o.promoted) : s.placeOf? n = some .queue := by
    obtain ⟨qos, hqos⟩ := ho.waited n hn
    exact hp.placeOf?_of_index hqos
  refine hp.restageAll hs Request.promoted_idem (by simp [Stage.promoted, Stage.place])
    (by simp [Stage.promoted, Stage.place]) ho.nodup ho.waited ho.index ?jobs ?nodup ?draining
    hp.nodup_draining ho.size ?live ?out
  case jobs =>
    intro k
    rw [List.mem_append]
    split
    next hk => simp [hk, Stage.promoted, Stage.place]
    next hk => simp [hk]
  case nodup =>
    refine List.nodup_append.mpr ⟨hp.nodup_jobs, ho.nodup, ?_⟩
    rintro k hk _ hk' rfl
    -- nobody is both among the jobs and in the queue
    have hjob := (hp.jobs k).mp hk
    rw [hqueue k hk'] at hjob
    cases hjob
  case draining =>
    intro k
    split
    next hk =>
      rw [hp.draining, hqueue k hk]
      simp [Stage.promoted, Stage.place]
    · rfl
  case live =>
    rw [ho.frame]
    simp [Stage.promoted, Stage.place, Place.onSlot]
  case out => rw [ho.frame]

theorem Placed.dismiss (hp : s.Placed) (hs : s.Numbered) (hq : s.pool.queue.Synced) :
    ({ s with pool := s.pool.stop.2, draining := s.draining ++ s.pool.stop.1 }.restageAll
      Stage.dismissed s.pool.stop.1).Placed := by
  unfold Pool.stop
  split
  · rw [restageAll_nil, List.append_nil]
    exact hp
  have hwaited (n : Nat) : n ∈ s.pool.queue.ordinals ↔ ∃ qos, s.pool.queue.index[n]? = some qos :=
    hq.mem_ordinals
  refine hp.restageAll hs Request.dismissed_idem (by simp [Stage.dismissed, Stage.place])
    (by simp [Stage.dismissed, Stage.place]) hq.nodup_ordinals (fun n hn ↦ (hwaited n).mp hn)
    ?queue ?jobs hp.nodup_jobs ?draining ?nodup ?size ?live rfl
  case queue =>
    intro k
    have hempty : s.pool.queue.drain.2.index[k]? = none := by simp [Queue.drain]
    rw [hempty]
    split
    · rfl
    next hk =>
      rw [hwaited] at hk
      exact (Option.eq_none_iff_forall_not_mem.mpr fun qos hqos ↦ hk ⟨qos, hqos⟩).symm
  case jobs =>
    intro k
    split
    next hk =>
      obtain ⟨qos, hqos⟩ := (hwaited k).mp hk
      rw [hp.jobs, hp.placeOf?_of_index hqos]
      simp [Stage.dismissed, Stage.place]
    · rfl
  case draining =>
    intro k
    rw [List.mem_append]
    split
    next hk => simp [hk, Stage.dismissed, Stage.place]
    next hk => simp [hk]
  case nodup =>
    refine List.nodup_append.mpr ⟨hp.nodup_draining, hq.nodup_ordinals, ?_⟩
    rintro k hk _ hk' rfl
    obtain ⟨qos, hqos⟩ := (hwaited k).mp hk'
    have hdrain := (hp.draining k).mp hk
    rw [hp.placeOf?_of_index hqos] at hdrain
    cases hdrain
  case size =>
    rw [Queue.length_ordinals, Queue.size_drain, Nat.zero_add]
  case live => simp [Stage.dismissed, Stage.place, Place.onSlot]

end Scheduler

end Turnstile
