import Turnstile.Proofs.Pool.Stop
import Turnstile.Proofs.Scheduler.Meaning

/-!
# What a move does to whom

A move is about one request, or about none. What it does to the one it is about depends on that
request and on little else: whether it is the first of the jobs, whether a gate has been opened for
it, and where it comes to if it asks for a slot. These are its `Circumstances`, and
`Circumstances.perform` says what becomes of it and what is told of it, without the scheduler.
Another request only notices a move if it waits in the queue and is taken out of it.

So two runs do the same to a request as long as they find it in the same circumstances.
-/

namespace Turnstile

/-- The request stands at a gate. -/
def Stage.isGated : Stage → Bool
  | .gated => true
  | _ => false

/-- What a request finds when a move is made. -/
structure Circumstances where
  /-- The user code. -/
  hooks : Hooks
  /-- The settings. -/
  config : Config
  /-- It is the first of the jobs. -/
  first : Bool
  /-- A gate has been opened for it. -/
  opened : Bool
  /-- Where it comes to if it asks for a slot. -/
  entry : Admission → Stage

namespace Circumstances

variable {σ : Type} [Exchange σ]

/-- What becomes of a request that moves on, and what is told of it. -/
def advance (c : Circumstances) (r : Request σ) : Request σ × List Happening :=
  match r.stage with
  | .arriving => ({ r with stage := c.entry .fresh }, [])
  | .returning => ({ r with stage := c.entry .resumed }, [])
  | .ready => (if c.first then { r with stage := .running } else r, [])
  | .running => r.turn
  | .gated => (if c.opened then { r with stage := .running } else r, [])
  | .leaving exit => ({ r with stage := .departed exit }, [])
  | .departed exit => r.depart c.config.maxBodyBytes c.config.writeChunkSize exit
  | .reading _ _ | .writing _ =>
    match r.nextEvent? with
    | some (event, r) => r.receive event
    | none => (r, [])
  | .failing failure => Request.fail c.hooks r failure
  | .finishing =>
    let (completed?, r, told) := Request.finish c.hooks r
    ({ r with stage := .gone (.ofFinish completed?) }, told)
  | .refusing reason _ =>
    let (r, told) := Request.refuse c.hooks r reason
    ({ r with stage := .gone (.refused reason) }, told)
  | .queued | .drained | .gone _ | .lost => (r, [])

/-- What becomes of a request that the transport forgets, and what is told of it. -/
def forget (c : Circumstances) (r : Request σ) : Request σ × List Happening :=
  match r.stage with
  | .reading .. | .writing _ =>
    let (r, told) := Request.drop c.hooks { r with reads := none, writes := none }
    ({ r with stage := .lost }, told)
  | _ => ({ r with reads := none, writes := none }, [])

/-- What becomes of a request with a move that is about it, and what is told of it. -/
def perform (c : Circumstances) (r : Request σ) : Scheduler.Move σ → Request σ × List Happening
  | .advance _ => c.advance r
  | .deliver _ direction events => (r.deliver events direction, [])
  | .wake _ =>
    match Exchange.wake r.exchange with
    | some (events, exchange) => ({ r with exchange }.deliver events .write, [])
    | none => (r, [])
  | .forget _ => c.forget r
  | .reprioritize _ qos =>
    (if r.stage.isQueued then { r with dossier := { r.dossier with qos } } else r, [])
  | .openGate _ | .arrive _ _ | .stop | .drain => (r, [])

theorem perform_of_asking (c : Circumstances) {r : Request σ} {admission : Admission}
    (h : r.stage = admission.stage) (n : Nat) :
    c.perform r (.advance n) = ({ r with stage := c.entry admission }, []) := by
  rw [perform, advance, h]
  cases admission <;> rfl

/-- Nobody looks at a circumstance that does not matter where it is. -/
theorem perform_congr {c c' : Circumstances} {r : Request σ} {m : Scheduler.Move σ}
    (hooks : c'.hooks = c.hooks) (config : c'.config = c.config)
    (first : ∀ n, m = .advance n → r.stage = .ready → c'.first = c.first)
    (opened : r.stage = .gated → c'.opened = c.opened)
    (entry : ∀ n admission, m = .advance n → r.stage = admission.stage →
      c'.entry admission = c.entry admission) :
    c'.perform r m = c.perform r m := by
  cases m with
  | advance n =>
    rw [perform, perform, advance, advance, hooks, config]
    cases hstage : r.stage with
    | arriving => simp only [entry n .fresh rfl hstage]
    | returning => simp only [entry n .resumed rfl hstage]
    | ready => simp only [first n rfl hstage]
    | gated => simp only [opened hstage]
    | _ => rfl
  | forget n => rw [perform, perform, forget, forget, hooks]
  | _ => rfl

end Circumstances

namespace Scheduler

variable {σ : Type} {s s' : Scheduler σ} {n k : Nat} {r r' : Request σ} {m : Move σ}

/-- The request that a move is about. -/
def Move.target? : Move σ → Option Nat
  | .advance n | .deliver n _ _ | .wake n | .forget n | .openGate n | .reprioritize n _ => some n
  | .arrive _ _ | .stop | .drain => none

/-- Where a request comes to if it asks for a slot. -/
def entry (s : Scheduler σ) (r : Request σ) (admission : Admission) : Stage :=
  match s.pool.enroll r.rank admission with
  | .ok (.live, _) => .ready
  | .ok (.queued, _) => .queued
  | .error reason => .refusing reason (admission = .resumed)

/-- What a request finds when a move is made. -/
def circumstances (s : Scheduler σ) (r : Request σ) : Circumstances where
  hooks := s.hooks
  config := s.config
  first := s.jobs.head? = some r.ordinal
  opened := s.permits.contains r.ordinal
  entry := s.entry r

theorem circumstances_opened (h : s'.permits.count r'.ordinal = s.permits.count r.ordinal) :
    (s'.circumstances r').opened = (s.circumstances r).opened := by
  rw [circumstances, circumstances, Bool.eq_iff_iff, List.contains_iff_mem, List.contains_iff_mem,
    ← List.count_pos_iff, ← List.count_pos_iff, h]

/-- With a move the request with the ordinal `n` comes to `outcome`, and of the others only those
who wait in the queue are touched, if they are taken out of it. -/
structure Affects (s : Scheduler σ) (n : Nat) (outcome : Request σ × List Happening)
    (s' : Scheduler σ) : Prop where
  /-- The request comes to the outcome. -/
  self : s'.requests[n]? = some outcome.1
  /-- This is told of it. -/
  told : s'.history n = s.history n ++ outcome.2
  /-- The others stay where they are, or are taken out of the queue. -/
  others : ∀ {k : Nat} {r : Request σ}, k ≠ n → s.requests[k]? = some r →
    ∃ r', s'.requests[k]? = some r' ∧ Restaged r r' ∧ s'.history k = s.history k

/-! ## Moves that are about one request -/

theorem Affects.stay (hr : s.requests[n]? = some r) : s.Affects n (r, []) s where
  self := hr
  told := (List.append_nil _).symm
  others {_ r} _ hk := ⟨r, hk, .inl rfl, rfl⟩

/-- Requests and journal are as after putting the outcome back; nothing else counts. -/
theorem Affects.absorb {outcome : Request σ × List Happening} (hr : s.requests[n]? = some r)
    (hordinal : outcome.1.ordinal = n) (hrequests : s'.requests = (s.absorb outcome).requests)
    (hjournal : s'.journal = (s.absorb outcome).journal) : s.Affects n outcome s' where
  self := by
    rw [hrequests]
    exact getElem?_absorb hordinal (lt_size hr)
  told := by
    rw [history_congr hjournal, history_absorb, if_pos hordinal]
  others {k q} hkn hk := by
    have hne : outcome.1.ordinal ≠ k := fun h ↦ hkn (h.symm.trans hordinal)
    refine ⟨q, ?_, .inl rfl, ?_⟩
    · rw [hrequests]
      exact (put_getElem? (hordinal ▸ lt_size hr)).trans ((if_neg hne).trans hk)
    · rw [history_congr hjournal, history_absorb, if_neg hne, List.append_nil]

theorem affects_release {exit : Exit} (hs : s.Sound) (hr : s.requests[n]? = some r)
    (hstage : r.stage = .leaving exit) :
    s.Affects n ({ r with stage := .departed exit }, []) (s.release r exit) := by
  have hget (k : Nat) : (s.put { r with stage := .departed exit }).requests[k]? =
      if n = k then some { r with stage := .departed exit } else s.requests[k]? :=
    hs.numbered.getElem?_put hr (by rfl)
  have hhistory (k : Nat) : (s.release r exit).history k = s.history k := by
    rw [release_eq hs.balanced]
    exact history_congr restageAll_journal
  refine { self := ?_, told := (hhistory n).trans (List.append_nil _).symm, others := ?_ }
  · -- whoever has given its slot back does not wait, so it is not promoted itself
    obtain ⟨r', hr', rfl | ⟨hqueued, -⟩⟩ :=
      restaged_release hs hr hstage ((hget n).trans (if_pos rfl))
    · exact hr'
    · cases hqueued
  · intro k q hkn hk
    obtain ⟨q', hq', hrestaged⟩ :=
      restaged_release hs hr hstage ((hget k).trans ((if_neg (Ne.symm hkn)).trans hk))
    exact ⟨q', hq', hrestaged, hhistory k⟩

theorem affects_enroll (hs : s.Numbered) (hr : s.requests[n]? = some r) (admission : Admission) :
    s.Affects n ({ r with stage := s.entry r admission }, []) (s.enroll r admission) := by
  have hordinal := hs.ordinal hr
  rw [enroll, entry]
  rcases s.pool.enroll r.rank admission with reason | ⟨placement, pool⟩
  · exact .absorb hr hordinal rfl rfl
  · cases placement <;> exact .absorb hr hordinal rfl rfl

theorem affects_pickUp (hs : s.Numbered) (hr : s.requests[n]? = some r) :
    s.Affects n (if s.jobs.head? = some r.ordinal then { r with stage := .running } else r, [])
      (s.pickUp r) := by
  have hordinal := hs.ordinal hr
  rw [pickUp]
  cases hjobs : s.jobs with
  | nil => exact .stay hr
  | cons first jobs =>
    by_cases hfirst : first = r.ordinal
    · simp only [hfirst, List.head?_cons, if_true]
      exact .absorb hr hordinal rfl rfl
    · simp only [hfirst, List.head?_cons, Option.some_inj, if_false]
      exact .stay hr

variable [Exchange σ]

theorem affects_advanceRequest (hs : s.Sound) (hr : s.requests[n]? = some r) :
    s.Affects n ((s.circumstances r).advance r) (s.advanceRequest r) := by
  have hw := hs.wellFormed hr
  have hordinal := hs.numbered.ordinal hr
  have own {r' : Request σ} {told : List Happening} {input : Request.Input}
      (h : Request.Own s.hooks s.config r input r' told) : s.Affects n (r', told)
        (s.absorb (r', told)) := .absorb hr ((h.kept hw).ordinal.trans hordinal) rfl rfl
  rw [advanceRequest, Circumstances.advance]
  cases hstage : r.stage with
  | arriving => exact affects_enroll hs.numbered hr .fresh
  | returning => exact affects_enroll hs.numbered hr .resumed
  | ready => simpa [circumstances] using affects_pickUp hs.numbered hr
  | running => exact own (.turn hstage)
  | gated =>
    by_cases hopened : s.permits.contains r.ordinal = true
    · simp only [circumstances, hopened, if_true]
      exact .absorb hr hordinal rfl rfl
    · simp only [circumstances, hopened]
      exact .stay hr
  | leaving exit => exact affects_release hs hr hstage
  | departed exit => exact own (.depart hstage)
  | reading reader next =>
    cases hevent : r.nextEvent? with
    | none => exact .stay hr
    | some taken => exact own (.receive hevent)
  | writing writer =>
    cases hevent : r.nextEvent? with
    | none => exact .stay hr
    | some taken => exact own (.receive hevent)
  | failing failure =>
    exact .absorb hr ((Request.moved_fail s.hooks r failure).ordinal.trans hordinal) rfl rfl
  | finishing => exact .absorb hr ((Request.finish_ordinal s.hooks r).trans hordinal) rfl rfl
  | refusing reason admitted =>
    exact .absorb hr ((Request.refuse_ordinal s.hooks r reason).trans hordinal) rfl rfl
  | _ => exact .stay hr

omit [Exchange σ] in
theorem affects_forgetRequest (hs : s.Sound) (hr : s.requests[n]? = some r) :
    s.Affects n ((s.circumstances r).forget r) (s.forgetRequest r) := by
  have hordinal := hs.numbered.ordinal hr
  have hdropped (stage : Stage) :
      (Request.drop s.hooks { r with stage, reads := none, writes := none }).1.ordinal = n := by
    rw [Request.drop_frame]
    exact hordinal
  rw [forgetRequest, Circumstances.forget]
  cases hstage : r.stage with
  | reading reader next => exact .absorb hr (hdropped _) rfl rfl
  | writing writer => exact .absorb hr (hdropped _) rfl rfl
  | _ => exact .absorb hr hordinal rfl rfl

omit [Exchange σ] in
theorem affects_reprioritize (hs : s.Sound) (hp : s.Placed) (hr : s.requests[n]? = some r)
    (qos : Qos) :
    s.Affects n (if r.stage.isQueued then { r with dossier := { r.dossier with qos } } else r, [])
      (s.reprioritize n qos).2 := by
  have hordinal := hs.numbered.ordinal hr
  have hindex : s.pool.queue.index[n]? = r.waitsAs? := by rw [hp.queue, hr, Option.bind_some]
  have hnone : s.pool.queue.reprioritize? n qos = none ↔ s.pool.queue.index[n]? = none :=
    hs.balanced.synced.reprioritize?_eq_none_iff
  rw [hindex, Request.waitsAs?] at hnone
  rw [reprioritize, hr]
  by_cases hqueued : r.stage = .queued
  · rw [if_pos (Stage.place_eq_queue.mpr hqueued)] at hnone
    obtain ⟨taken, htaken⟩ := Option.ne_none_iff_exists'.mp (hnone.not.mpr (by simp))
    rw [Pool.reprioritize?, htaken, Option.map_some, if_pos (by rw [hqueued]; rfl)]
    exact .absorb hr hordinal rfl rfl
  · rw [if_neg fun hplace ↦ hqueued (Stage.place_eq_queue.mp hplace)] at hnone
    have hstays : r.stage.isQueued = false := by
      cases hstage : r.stage <;> first | rfl | exact absurd hstage hqueued
    rw [Pool.reprioritize?, hnone.mpr rfl, Option.map_none, if_neg (by simp [hstays])]
    exact .stay hr

/-- A move does to the request it is about what the circumstances of the request say. -/
theorem Reachable.affects (h : s.Reachable) (hm : m.target? = some n)
    (hr : s.requests[n]? = some r) :
    s.Affects n ((s.circumstances r).perform r m) (s.perform m) := by
  have hs := h.sound
  have hordinal := hs.numbered.ordinal hr
  cases m with
  | advance k =>
    cases hm
    rw [Scheduler.perform, Scheduler.advance, hr]
    exact affects_advanceRequest hs hr
  | deliver k direction events =>
    cases hm
    rw [Scheduler.perform, Scheduler.deliver, hr]
    have hdelivered : (r.deliver events direction).ordinal = n := by
      cases direction <;> exact hordinal
    exact .absorb hr hdelivered rfl rfl
  | wake k =>
    cases hm
    rw [Scheduler.perform, Scheduler.wake, hr, Circumstances.perform]
    dsimp only
    cases hwake : Exchange.wake r.exchange with
    | none => exact .stay hr
    | some woken => exact .absorb hr hordinal rfl rfl
  | forget k =>
    cases hm
    rw [Scheduler.perform, Scheduler.forget, hr]
    exact affects_forgetRequest hs hr
  | openGate k =>
    cases hm
    exact ⟨hr, (List.append_nil _).symm, fun {_ q} _ hk ↦ ⟨q, hk, .inl rfl, rfl⟩⟩
  | reprioritize k qos =>
    cases hm
    exact affects_reprioritize hs h.placed hr qos
  | _ => cases hm

/-! ## Moves that are about nobody else -/

theorem perform_of_missing (hm : m.target? = some n) (hr : s.requests[n]? = none) :
    (s.perform m).requests = s.requests ∧ (s.perform m).journal = s.journal := by
  cases m with
  | advance k =>
    cases hm
    rw [Scheduler.perform, Scheduler.advance, hr]
    exact ⟨rfl, rfl⟩
  | deliver k direction events =>
    cases hm
    rw [Scheduler.perform, Scheduler.deliver, hr]
    exact ⟨rfl, rfl⟩
  | wake k =>
    cases hm
    rw [Scheduler.perform, Scheduler.wake, hr]
    exact ⟨rfl, rfl⟩
  | forget k =>
    cases hm
    rw [Scheduler.perform, Scheduler.forget, hr]
    exact ⟨rfl, rfl⟩
  | openGate k => exact ⟨rfl, rfl⟩
  | reprioritize k qos =>
    cases hm
    rw [Scheduler.perform, Scheduler.reprioritize, hr]
    cases s.pool.reprioritize? n qos <;> exact ⟨rfl, rfl⟩
  | _ => cases hm

/-- A move leaves alone a request that it is not about, unless this is taken out of the queue, or
was taken out of it before and is refused. -/
theorem Reachable.bystander (h : s.Reachable) (hm : m.target? ≠ some n)
    (hr : s.requests[n]? = some r) (hstage : r.stage ≠ .drained) :
    ∃ r', (s.perform m).requests[n]? = some r' ∧ Restaged r r' ∧
      (s.perform m).history n = s.history n := by
  have hs := h.sound
  cases htarget : m.target? with
  | some k =>
    have hkn : n ≠ k := by
      rintro rfl
      exact hm htarget
    cases hk : s.requests[k]? with
    | some q => exact (h.affects htarget hk).others hkn hr
    | none =>
      obtain ⟨hrequests, hjournal⟩ := perform_of_missing htarget hk
      exact ⟨r, by rw [hrequests, hr], .inl rfl, history_congr hjournal⟩
  | none =>
    cases m with
    | arrive exchange program =>
      refine ⟨r, ?_, .inl rfl, rfl⟩
      rw [Scheduler.perform, Scheduler.arrive, Array.getElem?_push,
        if_neg (Nat.ne_of_lt (lt_size hr))]
      exact hr
    | stop =>
      obtain ⟨r', hr', hrestaged⟩ := restaged_stop hs.numbered hr
      refine ⟨r', hr', hrestaged, ?_⟩
      rw [Scheduler.perform, stop_eq]
      exact history_congr restageAll_journal
    | drain =>
      rw [Scheduler.perform, Scheduler.drain]
      split
      next k draining hdraining =>
        split
        next q hq =>
          have hkn : n ≠ k := by
            rintro rfl
            refine hstage ((h.placed.mem_draining hr).mp ?_)
            rw [hdraining]
            exact List.mem_cons_self
          have hordinal := (Request.refuse_ordinal s.hooks q .shutdown).trans
            (hs.numbered.ordinal hq)
          have haffects : s.Affects k
              ({ (Request.refuse s.hooks q .shutdown).1 with stage := .gone (.refused .shutdown) },
                (Request.refuse s.hooks q .shutdown).2)
              (refuse { s with draining } q .shutdown true) := .absorb hq hordinal rfl rfl
          exact haffects.others hkn hr
        · exact ⟨r, hr, .inl rfl, rfl⟩
      · exact ⟨r, hr, .inl rfl, rfl⟩
    | _ => cases htarget

/-! ## Gates and jobs -/

/-- A worker picks up the first of the jobs with this move. -/
def picks (s : Scheduler σ) : Move σ → Bool
  | .advance n => s.jobs.head? = some n
  | _ => false

/-- The request that a move opens a gate for. -/
def Move.opens? : Move σ → Option Nat
  | .openGate n => some n
  | _ => none

/-- The request that a move lets pass a gate, if one has been opened for it. -/
def passes? (s : Scheduler σ) : Move σ → Option Nat
  | .advance n => if s.requests[n]?.any (·.stage.isGated) then some n else none
  | _ => none

/-- The move refuses the next of those taken out of the queue. -/
def Move.isDrain : Move σ → Bool
  | .drain => true
  | _ => false

/-- Those whom a move takes out of the queue to be refused. -/
def dismisses (s : Scheduler σ) : Move σ → List Nat
  | .stop => s.pool.stop.1
  | _ => []

/-- What a move does to the gates opened, to the jobs and to those to be refused. -/
structure Lists (s : Scheduler σ) (m : Move σ) (s' : Scheduler σ) : Prop where
  /-- Opening a gate lets a request pass one, and passing one uses this up. -/
  permits : s'.permits =
    match m with
    | .openGate n => s.permits ++ [n]
    | _ => (s.passes? m).elim s.permits s.permits.erase
  /-- The first of the jobs is picked up, and others may be named behind the rest, but not after
  the stop. -/
  jobs : ∃ added, s'.jobs = s.jobs.drop (s.picks m).toNat ++ added ∧
    (s.pool.stopped = true → added = [])
  /-- The first of those to be refused is refused, and others are named behind the rest. -/
  draining : s'.draining = s.draining.drop m.isDrain.toNat ++ s.dismisses m

omit [Exchange σ] in
theorem Lists.same (hpermits : s'.permits = s.permits) (hjobs : s'.jobs = s.jobs)
    (hdraining : s'.draining = s.draining) (hpasses : s.passes? m = none)
    (hpicks : s.picks m = false)
    (hkind : (∀ n, m ≠ .openGate n) ∧ m ≠ .stop ∧ m ≠ .drain) : s.Lists m s' where
  permits := by
    rw [hpermits, hpasses]
    cases m with
    | openGate n => exact absurd rfl (hkind.1 n)
    | _ => rfl
  jobs := ⟨[], by simp [hjobs, hpicks], fun _ ↦ rfl⟩
  draining := by
    rw [hdraining]
    cases m with
    | stop => exact absurd rfl hkind.2.1
    | drain => exact absurd rfl hkind.2.2
    | _ => exact (List.append_nil _).symm

omit [Exchange σ] in
theorem Lists.count_permits (h : s.Lists m s') (n : Nat) :
    s'.permits.count n = s.permits.count n + (if m.opens? = some n then 1 else 0) -
      (if s.passes? m = some n then 1 else 0) := by
  have hpermits := h.permits
  cases m with
  | openGate k =>
    rw [hpermits, List.count_append, List.count_singleton]
    simp [Move.opens?, passes?]
  | advance k =>
    rw [hpermits]
    cases hpasses : s.passes? (.advance k) with
    | none => simp [Move.opens?]
    | some q => simp [Move.opens?, List.count_erase]
  | _ => exact hpermits ▸ rfl

omit [Exchange σ] in
theorem Placed.picks_eq_false (hp : s.Placed) (h : s.placeOf? n ≠ some .job) :
    s.picks (.advance n) = false := by
  refine Bool.eq_false_iff.mpr fun hpicks ↦ h ((hp.jobs n).mp ?_)
  exact List.mem_of_mem_head? (by simpa [picks] using hpicks)

omit [Exchange σ] in
theorem lists_pickUp (hs : s.Numbered) (hr : s.requests[n]? = some r) (hstage : r.stage = .ready) :
    s.Lists (.advance n) (s.pickUp r) := by
  have hpasses : s.passes? (.advance n : Move σ) = none := by
    rw [passes?, hr, Option.any_some, hstage]
    rfl
  have hkind : (∀ k, (.advance n : Move σ) ≠ .openGate k) ∧ (.advance n : Move σ) ≠ .stop ∧
      (.advance n : Move σ) ≠ .drain := by simp
  rw [pickUp, hs.ordinal hr]
  cases hjobs : s.jobs with
  | nil => exact .same rfl rfl rfl hpasses (by simp [picks, hjobs]) hkind
  | cons first jobs =>
    by_cases hfirst : first = n
    · simp only [if_pos hfirst]
      refine ⟨by rw [hpasses]; rfl, ⟨[], ?_, fun _ ↦ rfl⟩, (List.append_nil _).symm⟩
      simp [picks, hjobs, hfirst, put]
    · simp only [if_neg hfirst]
      exact .same rfl rfl rfl hpasses (by simp [picks, hjobs, hfirst]) hkind

omit [Exchange σ] in
theorem lists_enroll (admission : Admission) (hpasses : s.passes? (.advance n : Move σ) = none)
    (hpicks : s.picks (.advance n) = false) : s.Lists (.advance n) (s.enroll r admission) := by
  have hkind : (∀ k, (.advance n : Move σ) ≠ .openGate k) ∧ (.advance n : Move σ) ≠ .stop ∧
      (.advance n : Move σ) ≠ .drain := by simp
  rw [enroll]
  rcases hpool : s.pool.enroll r.rank admission with reason | ⟨placement, pool⟩
  · exact .same rfl rfl rfl hpasses hpicks hkind
  · cases placement with
    | queued => exact .same rfl rfl rfl hpasses hpicks hkind
    | live =>
      refine ⟨by rw [hpasses]; rfl, ⟨[r.ordinal], by simp [hpicks, put], ?_⟩,
        (List.append_nil _).symm⟩
      intro hstopped
      rw [Pool.enroll_of_stopped hstopped] at hpool
      cases hpool

omit [Exchange σ] in
theorem lists_release {exit : Exit} (hb : s.pool.Balanced)
    (hpasses : s.passes? (.advance n : Move σ) = none) (hpicks : s.picks (.advance n) = false) :
    s.Lists (.advance n) (s.release r exit) := by
  rw [release_eq hb]
  refine ⟨?_, ⟨s.pool.release.promoted, ?_, ?_⟩, ?_⟩
  · rw [restageAll_frame, hpasses]
    rfl
  · rw [restageAll_jobs, hpicks]
    rfl
  · intro hstopped
    rw [Pool.release_of_stopped hstopped]
  · rw [restageAll_draining]
    exact (List.append_nil _).symm

theorem lists_advanceRequest (hs : s.Sound) (hp : s.Placed) (hr : s.requests[n]? = some r) :
    s.Lists (.advance n) (s.advanceRequest r) := by
  have hkind : (∀ k, (.advance n : Move σ) ≠ .openGate k) ∧ (.advance n : Move σ) ≠ .stop ∧
      (.advance n : Move σ) ≠ .drain := by simp
  have hpasses : s.passes? (.advance n : Move σ) = if r.stage.isGated then some n else none := by
    rw [passes?, hr, Option.any_some]
  have hpicks (hstage : r.stage ≠ .ready) : s.picks (.advance n) = false := by
    refine hp.picks_eq_false ?_
    rw [placeOf?, hr, Option.map_some, ne_eq, Option.some_inj, Stage.place_eq_job]
    exact hstage
  rw [advanceRequest]
  cases hstage : r.stage with
  | ready => exact lists_pickUp hs.numbered hr hstage
  | gated =>
    rw [hstage, Stage.isGated, if_pos rfl] at hpasses
    have hjobs (s' : Scheduler σ) (h : s'.jobs = s.jobs) :
        ∃ added, s'.jobs = s.jobs.drop (s.picks (.advance n)).toNat ++ added ∧
          (s.pool.stopped = true → added = []) :=
      ⟨[], by simp [h, hpicks (by simp [hstage])], fun _ ↦ rfl⟩
    have hordinal := hs.numbered.ordinal hr
    by_cases hopened : s.permits.contains n = true
    · simp only [hordinal, hopened, if_true]
      refine ⟨?_, hjobs _ rfl, (List.append_nil _).symm⟩
      rw [hpasses]
      rfl
    · simp only [hordinal, hopened]
      refine ⟨?_, hjobs _ rfl, (List.append_nil _).symm⟩
      rw [hpasses]
      exact (List.erase_of_not_mem (by simpa using hopened)).symm
  | _ =>
    -- nobody else passes a gate, and nobody else is the first of the jobs
    replace hpasses : s.passes? (.advance n : Move σ) = none := by rw [hpasses, hstage]; rfl
    replace hpicks : s.picks (.advance n) = false :=
      hpicks (by rw [hstage]; exact Stage.noConfusion)
    first
    | exact lists_enroll _ hpasses hpicks
    | exact lists_release hs.balanced hpasses hpicks
    | exact .same rfl rfl rfl hpasses hpicks hkind
    | cases r.nextEvent? <;> exact .same rfl rfl rfl hpasses hpicks hkind

theorem Reachable.lists (h : s.Reachable) (m : Move σ) : s.Lists m (s.perform m) := by
  have hs := h.sound
  cases m with
  | openGate n => exact ⟨rfl, ⟨[], (List.append_nil _).symm, fun _ ↦ rfl⟩, (List.append_nil _).symm⟩
  | advance n =>
    rw [Scheduler.perform, Scheduler.advance]
    cases hr : s.requests[n]? with
    | some r => exact lists_advanceRequest hs h.placed hr
    | none =>
      have hpicks := h.placed.picks_eq_false (n := n) (by simp [placeOf?, hr])
      exact .same rfl rfl rfl (by simp [passes?, hr]) hpicks (by simp)
  | stop =>
    rw [Scheduler.perform, stop_eq]
    refine ⟨by rw [restageAll_frame]; rfl, ⟨[], ?_, fun _ ↦ rfl⟩, restageAll_draining⟩
    exact restageAll_jobs.trans (List.append_nil _).symm
  | deliver n direction events =>
    rw [Scheduler.perform, Scheduler.deliver]
    cases s.requests[n]? <;> exact .same rfl rfl rfl rfl rfl (by simp)
  | wake n =>
    rw [Scheduler.perform, Scheduler.wake]
    cases hr : s.requests[n]? with
    | none => exact .same rfl rfl rfl rfl rfl (by simp)
    | some r =>
      dsimp only
      split <;> exact .same rfl rfl rfl rfl rfl (by simp)
  | forget n =>
    rw [Scheduler.perform, Scheduler.forget]
    cases hr : s.requests[n]? with
    | none => exact .same rfl rfl rfl rfl rfl (by simp)
    | some r =>
      dsimp only
      rw [forgetRequest]
      split <;> exact .same rfl rfl rfl rfl rfl (by simp)
  | reprioritize n qos =>
    rw [Scheduler.perform, reprioritize]
    split <;> exact .same rfl rfl rfl rfl rfl (by simp)
  | drain =>
    rw [Scheduler.perform, Scheduler.drain]
    cases hdraining : s.draining with
    | nil =>
      exact ⟨rfl, ⟨[], (List.append_nil _).symm, fun _ ↦ rfl⟩, by simp [hdraining, dismisses]⟩
    | cons first rest =>
      dsimp only
      split <;> exact ⟨rfl, ⟨[], (List.append_nil _).symm, fun _ ↦ rfl⟩,
        by simp [hdraining, dismisses, Move.isDrain, refuse, absorb, record, put]⟩
  | arrive exchange program => exact .same rfl rfl rfl rfl rfl (by simp)

end Scheduler

end Turnstile
