import Turnstile.Proofs.Pool.Decision
import Turnstile.Proofs.Request.Refusing
import Turnstile.Proofs.Scheduler.Admission
import Turnstile.Proofs.Scheduler.Containment
import Turnstile.Scheduler.Settle

/-!
# Who is let in

A request that asks for a slot is let in exactly if the scheduler is not stopped and fewer requests
than the cap allows hold a slot or wait for one, and otherwise it is declined for the one of these
that fails. This is `Pool.objection?`, carried over from a pool in balance to every state that a run
leads to: requests come under ordinals of their own, so the queue never knows one that asks.

A request that is declined leaves the state as it was but for its own stage, and its refusal changes
the counters of the refused and, if it had been accepted, of the outstanding.
-/

namespace Turnstile

namespace Scheduler

open Request (report)

variable {σ : Type} [Exchange σ] {s : Scheduler σ} {n : Nat} {r : Request σ}
  {admission : Admission} {reason : Refusal} {exchange : σ} {program : Program}

/-! ## The decision -/

theorem advance_asking (admission : Admission) (hr : s.requests[n]? = some r)
    (h : r.stage = admission.stage) :
    s.perform (.advance n) = s.enroll r admission := by
  rw [perform, advance, hr]
  dsimp only
  rw [advanceRequest, h]
  cases admission <;> rfl

theorem Reachable.index_asking (h : s.Reachable) (admission : Admission)
    (hr : s.requests[n]? = some r) (hstage : r.stage = admission.stage) :
    s.pool.queue.index[r.rank.ordinal]? = none := by
  rw [Request.rank, h.sound.numbered.ordinal hr, h.placed.queue, hr]
  exact (h.placed.enrolling hr hstage).1

theorem Reachable.advance_of_objection (h : s.Reachable) (admission : Admission)
    (hr : s.requests[n]? = some r) (hstage : r.stage = admission.stage)
    (hreason : s.pool.objection? = some reason) :
    s.perform (.advance n) =
      s.put { r with stage := .refusing reason (admission = .resumed) } := by
  have herror := (h.sound.balanced.enroll_eq_error_iff admission
    (h.index_asking admission hr hstage)).mpr hreason
  rw [advance_asking admission hr hstage, enroll, herror]

theorem Reachable.advance_of_none (h : s.Reachable) (admission : Admission)
    (hr : s.requests[n]? = some r) (hstage : r.stage = admission.stage)
    (hnone : s.pool.objection? = none) :
    ∃ r', (s.perform (.advance n)).requests[n]? = some r' ∧
      (r'.stage = .ready ∨ r'.stage = .queued) := by
  have hordinal : r.ordinal = n := h.sound.numbered.ordinal hr
  have hlt : r.ordinal < s.requests.size := hordinal ▸ lt_size hr
  obtain ⟨placement, pool, hpool⟩ := (h.sound.balanced.exists_enroll_iff admission
    (h.index_asking admission hr hstage)).mpr hnone
  rw [advance_asking admission hr hstage, enroll, hpool]
  cases placement with
  | live =>
    refine ⟨{ r with stage := .ready }, ?_, .inl rfl⟩
    exact (put_getElem? (by exact hlt)).trans (if_pos hordinal)
  | queued =>
    refine ⟨{ r with stage := .queued }, ?_, .inr rfl⟩
    exact (put_getElem? (by exact hlt)).trans (if_pos hordinal)

/-! ## The refusal -/

/-- A request about to be refused stands still until it is refused, which happens once, and nothing
else is told of it: its program has run for the last time. -/
theorem Reachable.refusing (h : s.Reachable) (hr : s.requests[n]? = some r)
    (hrefusal : r.stage.refusal? = some reason) (later : List (Move σ)) :
    ∃ r', (s.performAll later).requests[n]? = some r' ∧ r'.program = r.program ∧
      (r'.stage = r.stage ∧ r'.dossier = r.dossier ∧
          (s.performAll later).history n = s.history n ∨
        r'.stage = .gone (.refused reason) ∧ ∃ fault? swept,
          (s.performAll later).history n = s.history n ++
            report s.hooks (.rejected n reason.message) :: .call (.reject reason fault?) :: swept ∧
          (∀ x ∈ swept, x.ofCleanup = true) ∧ (r.dossier.cleaners = .empty → swept = [])) := by
  induction later using List.reverseRecOn with
  | nil => exact ⟨r, hr, rfl, .inl ⟨rfl, rfl, rfl⟩⟩
  | append_singleton later m ih =>
    obtain ⟨r₁, hr₁, hprogram₁, hcourse⟩ := ih
    have hreachable := h.performAll later
    have hsound := hreachable.sound
    obtain ⟨r₂, told, hr₂, hhistory₂, hstep⟩ := (hreachable.change m).step hsound hr₁
    have hlast : s.performAll (later ++ [m]) = (s.performAll later).perform m :=
      performAll_append s later [m]
    rw [hlast, hhistory₂]
    rcases hcourse with ⟨hstage₁, hdossier₁, hhistory₁⟩ | ⟨hgone, fault?, swept, hhistory₁, hswept⟩
    · have hrefusal₁ : r₁.stage.refusal? = some reason := by rw [hstage₁, hrefusal]
      rcases hstep.of_refusal hrefusal₁ with
        ⟨rfl, hstage₂, hdossier₂, hprogram₂, -⟩ | ⟨rfl, hgone, hprogram₂⟩
      · refine ⟨r₂, hr₂, hprogram₂.trans hprogram₁,
          .inl ⟨hstage₂.trans hstage₁, hdossier₂.trans hdossier₁, ?_⟩⟩
        rw [List.append_nil, hhistory₁]
      · have hopen := (hsound.wellFormed hr₁).closed_of_refused
          (Stage.refusal?_eq_some_iff.mp hrefusal₁)
        obtain ⟨hkept, swept, htold, hswept, hempty⟩ :=
          Request.exists_refuse (s.performAll later).hooks hopen reason
        rw [htold, hhistory₁, hsound.numbered.ordinal hr₁, (h.frame_performAll later).2]
        refine ⟨r₂, hr₂, hprogram₂.trans (hkept.trans hprogram₁),
          .inr ⟨hgone, _, swept, rfl, hswept, ?_⟩⟩
        intro hnone
        exact hempty (by rw [hdossier₁, hnone])
    · -- whoever has left stays as it left
      obtain ⟨rfl, hstage₂, -, -, -, hprogram₂⟩ := hstep.of_gone hgone
      rw [List.append_nil]
      exact ⟨r₂, hr₂, hprogram₂.trans hprogram₁,
        .inr ⟨hstage₂.trans hgone, fault?, swept, hhistory₁, hswept⟩⟩

theorem Reachable.advance_refusing_eq (h : s.Reachable) (hr : s.requests[n]? = some r)
    {admitted : Bool} (hstage : r.stage = .refusing reason admitted) :
    ∃ r' swept, s.perform (.advance n) =
        { s with pool := s.pool.refuse admitted }.absorb (r',
          report s.hooks (.rejected n reason.message) ::
            .call (.reject reason (Exchange.reject r.exchange reason).1) :: swept) ∧
      r'.ordinal = n ∧ r'.stage = .gone (.refused reason) ∧ r'.program = r.program ∧
      (∀ x ∈ swept, x.ofCleanup = true) ∧ (r.dossier.cleaners = .empty → swept = []) := by
  have hordinal : r.ordinal = n := h.sound.numbered.ordinal hr
  obtain ⟨hprogram, swept, htold, hswept⟩ := Request.exists_refuse s.hooks
    ((h.sound.wellFormed hr).closed_of_refused (.inl ⟨admitted, hstage⟩)) reason
  rw [hordinal] at htold
  refine ⟨{ (Request.refuse s.hooks r reason).1 with stage := .gone (.refused reason) }, swept, ?_,
    (Request.refuse_ordinal s.hooks r reason).trans hordinal, rfl, hprogram, hswept⟩
  rw [perform, advance, hr, ← htold]
  dsimp only
  rw [advanceRequest, hstage]
  rfl

/-! ## Submitting -/

omit [Exchange σ] in
theorem setIfInBounds_push_size {α : Type} (xs : Array α) (x y : α) :
    (xs.push x).setIfInBounds xs.size y = xs.push y := by
  rw [Array.push_eq_append, Array.push_eq_append,
    Array.setIfInBounds_append_right (Nat.le_refl xs.size), Nat.sub_self]
  rfl

theorem Reachable.submit_of_none (h : s.Reachable) (exchange : σ) (program : Program)
    (hnone : s.pool.objection? = none) :
    s.submit exchange program =
      (.ok s.requests.size, (s.arrive exchange program).perform (.advance s.requests.size)) := by
  obtain ⟨hnew, -⟩ := h.arrival exchange program
  have harrived : (s.arrive exchange program).Reachable := h.move (.arrive exchange program)
  obtain ⟨r', hr', hstage⟩ := harrived.advance_of_none .fresh hnew rfl hnone
  have hr'' : ((s.arrive exchange program).advance s.requests.size).requests[s.requests.size]? =
    some r' := hr'
  rw [submit, hr'']
  rcases hstage with hstage | hstage <;> simp [hstage, perform]

/-- A request that is submitted is refused at once if something stands against it: it comes and
goes, and of everything else only the counter of the refused changes. -/
theorem Reachable.submit_of_objection (h : s.Reachable) (exchange : σ) (program : Program)
    (hreason : s.pool.objection? = some reason) :
    ∃ r', s.submit exchange program = (.error reason,
        { s with
          requests := s.requests.push r'
          pool := s.pool.refuse false
          journal := s.journal ++ [report s.hooks (.rejected s.requests.size reason.message),
            .call (.reject reason (Exchange.reject exchange reason).1)].map
              (Entry.mk s.requests.size) }) ∧
      r'.stage = .gone (.refused reason) ∧ r'.program = some program := by
  obtain ⟨hnew, -⟩ := h.arrival exchange program
  have harrived : (s.arrive exchange program).Reachable := h.move (.arrive exchange program)
  -- the request that has just arrived is declined, and then it is refused
  have hdeclined := harrived.advance_of_objection .fresh hnew rfl hreason
  obtain ⟨q, hput, hq, hstage, hexchange, hprogram, hcleaners, hordinal⟩ : ∃ q : Request σ,
      (s.arrive exchange program).advance s.requests.size = (s.arrive exchange program).put q ∧
      ((s.arrive exchange program).put q).requests[s.requests.size]? = some q ∧
      q.stage = .refusing reason false ∧ q.exchange = exchange ∧ q.program = some program ∧
      q.dossier.cleaners = .empty ∧ q.ordinal = s.requests.size :=
    ⟨_, hdeclined, (put_getElem? (by exact lt_size hnew)).trans (if_pos rfl), rfl, rfl, rfl, rfl,
      rfl⟩
  have hdeciding : ((s.arrive exchange program).put q).Reachable :=
    hput ▸ harrived.move (.advance s.requests.size)
  obtain ⟨r', swept, hrefused, hordinal', hgone, hprogram', -, hempty⟩ :=
    hdeciding.advance_refusing_eq hq hstage
  refine ⟨r', ?_, hgone, hprogram'.trans hprogram⟩
  have hlast : ((s.arrive exchange program).put q).advance s.requests.size = _ := hrefused
  have hrequests : ((s.arrive exchange program).put q).requests.setIfInBounds r'.ordinal r' =
      s.requests.push r' := by
    rw [hordinal', put, hordinal, Array.setIfInBounds_setIfInBounds, Scheduler.arrive,
      setIfInBounds_push_size]
  rw [submit]
  simp only [hput, hq, hstage, hlast]
  rw [hempty hcleaners, hexchange, absorb, record, put, hordinal']
  rw [hordinal'] at hrequests
  rw [← hrequests]
  rfl

theorem Reachable.submit (h : s.Reachable) (exchange : σ) (program : Program) :
    (s.submit exchange program).2.Reachable := by
  have hasked : ((s.arrive exchange program).advance s.requests.size).Reachable :=
    (h.move (.arrive exchange program)).move (.advance s.requests.size)
  unfold Scheduler.submit
  dsimp only
  split
  · split
    · exact hasked.move (.advance s.requests.size)
    · exact hasked
  · exact hasked

omit [Exchange σ] in
theorem history_record {told : List Happening} :
    (s.record n told).history n = s.history n ++ told := by
  simp [history, record, List.filterMap_map]

/-! ## Who is let in after every run -/

/-- Who is let in where `cap` requests may hold a slot or wait for one, and what the refusal of the
others does. -/
structure Decides (s : Scheduler σ) (cap : Nat) : Prop where
  /-- A request that asks for a slot gets one or waits for one exactly if the scheduler is not
  stopped and the cap is not reached. -/
  admits : ∀ {n : Nat} {r : Request σ} {admission : Admission}, s.requests[n]? = some r →
    r.stage = admission.stage →
    ((∃ r', (s.perform (.advance n)).requests[n]? = some r' ∧
        (r'.stage = .ready ∨ r'.stage = .queued)) ↔
      s.pool.stopped = false ∧ s.pool.live + s.pool.queue.size < cap)
  /-- Otherwise it is declined, with which nothing changes but its own stage: because of the stop
  exactly if the scheduler is stopped, and because of the cap exactly if it is not and the cap is
  reached. There is no other reason. -/
  declines : ∀ {n : Nat} {r : Request σ} {admission : Admission} {reason : Refusal},
    s.requests[n]? = some r → r.stage = admission.stage →
    (s.perform (.advance n) = s.put { r with stage := .refusing reason (admission = .resumed) } ↔
      reason = .shutdown ∧ s.pool.stopped = true ∨
        reason = .capacityExceeded cap ∧ s.pool.stopped = false ∧
          s.pool.live + s.pool.queue.size = cap)
  /-- The refusal of a request counts it as refused, and as not outstanding any more if it had been
  accepted. Its exchange is refused with the reason, and then only cleaners are heard of. -/
  refuses : ∀ {n : Nat} {r : Request σ} {reason : Refusal} {admitted : Bool},
    s.requests[n]? = some r → r.stage = .refusing reason admitted →
    ∃ r' swept, s.perform (.advance n) =
        { s with pool := { s.pool with
            rejected := s.pool.rejected + 1
            outstanding := if admitted then s.pool.outstanding - 1 else s.pool.outstanding }
          }.absorb (r', report s.hooks (.rejected n reason.message) ::
            .call (.reject reason (Exchange.reject r.exchange reason).1) :: swept) ∧
      r'.ordinal = n ∧ r'.stage = .gone (.refused reason) ∧ r'.program = r.program ∧
      (∀ x ∈ swept, x.ofCleanup = true) ∧ (admitted = true → 0 < s.pool.outstanding)
  /-- A submission is accepted exactly if the scheduler is not stopped and the cap is not
  reached. -/
  accepts : ∀ (exchange : σ) (program : Program),
    (s.submit exchange program).1 = .ok s.requests.size ↔
      s.pool.stopped = false ∧ s.pool.live + s.pool.queue.size < cap
  /-- It fails because of the stop exactly if the scheduler is stopped, because of the cap exactly
  if it is not and the cap is reached, and for no other reason. -/
  fails : ∀ (exchange : σ) (program : Program) (reason : Refusal),
    (s.submit exchange program).1 = .error reason ↔
      reason = .shutdown ∧ s.pool.stopped = true ∨
        reason = .capacityExceeded cap ∧ s.pool.stopped = false ∧
          s.pool.live + s.pool.queue.size = cap
  /-- When a submission has failed, its exchange has been refused with the reason, one more request
  is counted as refused, and everything else is as it was. Nothing is told of it but that, then or
  ever: its program does not run. -/
  turnsAway : ∀ (exchange : σ) (program : Program) (reason : Refusal),
    (s.submit exchange program).1 = .error reason →
    (∃ r', (s.submit exchange program).2 =
        { s with
          requests := s.requests.push r'
          pool := { s.pool with rejected := s.pool.rejected + 1 }
          journal := s.journal ++ [report s.hooks (.rejected s.requests.size reason.message),
            .call (.reject reason (Exchange.reject exchange reason).1)].map
              (Entry.mk s.requests.size) } ∧
      r'.stage = .gone (.refused reason) ∧ r'.program = some program) ∧
    ∀ later : List (Move σ), ((s.submit exchange program).2.performAll later).history
        s.requests.size =
      [report s.hooks (.rejected s.requests.size reason.message),
        .call (.reject reason (Exchange.reject exchange reason).1)]
  /-- The same holds of a request that is declined when it arrives while others move on. -/
  silent : ∀ {n : Nat} {r : Request σ} {reason : Refusal}, s.requests[n]? = some r →
    r.stage = .refusing reason false → ∀ later : List (Move σ),
    ∃ r' fault?, (s.performAll later).requests[n]? = some r' ∧
      (r'.stage = .refusing reason false ∧ (s.performAll later).history n = [] ∨
        r'.stage = .gone (.refused reason) ∧ (s.performAll later).history n =
          [report s.hooks (.rejected n reason.message), .call (.reject reason fault?)])

/-- What stands against a request, by the counters. -/
theorem Reachable.objection?_eq_some_iff (h : s.Reachable) :
    s.pool.objection? = some reason ↔
      reason = .shutdown ∧ s.pool.stopped = true ∨
        reason = .capacityExceeded s.config.maxInFlight ∧ s.pool.stopped = false ∧
          s.pool.live + s.pool.queue.size = s.config.maxInFlight := by
  rw [← h.limits.2]
  exact h.sound.balanced.objection?_eq_some_iff

theorem Reachable.objection?_eq_none_iff (h : s.Reachable) :
    s.pool.objection? = none ↔
      s.pool.stopped = false ∧ s.pool.live + s.pool.queue.size < s.config.maxInFlight := by
  rw [← h.limits.2]
  exact Pool.objection?_eq_none_iff

theorem Reachable.declines_iff (h : s.Reachable) (hr : s.requests[n]? = some r)
    (hstage : r.stage = admission.stage) :
    s.perform (.advance n) = s.put { r with stage := .refusing reason (admission = .resumed) } ↔
      s.pool.objection? = some reason := by
  refine ⟨fun hdeclined ↦ ?_, h.advance_of_objection admission hr hstage⟩
  have hordinal : r.ordinal = n := h.sound.numbered.ordinal hr
  have hput (other : Refusal) : (s.put { r with
      stage := .refusing other (admission = .resumed) }).requests[n]? =
        some { r with stage := .refusing other (admission = .resumed) } :=
    (put_getElem? (by exact hordinal ▸ lt_size hr)).trans (if_pos hordinal)
  cases hobjection : s.pool.objection? with
  | none =>
    obtain ⟨r', hr', hstage'⟩ := h.advance_of_none admission hr hstage hobjection
    rw [hdeclined, hput] at hr'
    cases hr'
    rcases hstage' with hstage' | hstage' <;> cases hstage'
  | some other =>
    have hother := h.advance_of_objection admission hr hstage hobjection
    have hsame := congrArg (fun t ↦ t.requests[n]?.map (·.stage)) (hdeclined.symm.trans hother)
    simp only [hput, Option.map_some, Option.some_inj, Stage.refusing.injEq] at hsame
    rw [hsame.1]

theorem Reachable.admits_iff (h : s.Reachable) (hr : s.requests[n]? = some r)
    (hstage : r.stage = admission.stage) :
    (∃ r', (s.perform (.advance n)).requests[n]? = some r' ∧
        (r'.stage = .ready ∨ r'.stage = .queued)) ↔ s.pool.objection? = none := by
  refine ⟨?_, h.advance_of_none admission hr hstage⟩
  rintro ⟨r', hr', hstage'⟩
  by_contra hobjection
  obtain ⟨reason, hreason⟩ := Option.ne_none_iff_exists'.mp hobjection
  have hordinal : r.ordinal = n := h.sound.numbered.ordinal hr
  rw [h.advance_of_objection admission hr hstage hreason,
    put_getElem? (by exact hordinal ▸ lt_size hr), if_pos hordinal] at hr'
  cases hr'
  rcases hstage' with hstage' | hstage' <;> cases hstage'

theorem Reachable.fails_iff (h : s.Reachable) (exchange : σ) (program : Program) :
    (s.submit exchange program).1 = .error reason ↔ s.pool.objection? = some reason := by
  cases hobjection : s.pool.objection? with
  | none => simp [h.submit_of_none exchange program hobjection]
  | some other =>
    obtain ⟨r', hsubmit, -⟩ := h.submit_of_objection exchange program hobjection
    simp [hsubmit]

theorem Reachable.accepts_iff (h : s.Reachable) (exchange : σ) (program : Program) :
    (s.submit exchange program).1 = .ok s.requests.size ↔ s.pool.objection? = none := by
  cases hobjection : s.pool.objection? with
  | none => simp [h.submit_of_none exchange program hobjection]
  | some other =>
    obtain ⟨r', hsubmit, -⟩ := h.submit_of_objection exchange program hobjection
    simp [hsubmit]

theorem Reachable.turnsAway (h : s.Reachable) (exchange : σ) (program : Program)
    (hreason : s.pool.objection? = some reason) (later : List (Move σ)) :
    ((s.submit exchange program).2.performAll later).history s.requests.size =
      [report s.hooks (.rejected s.requests.size reason.message),
        .call (.reject reason (Exchange.reject exchange reason).1)] := by
  obtain ⟨r', hsubmit, hgone, -⟩ := h.submit_of_objection exchange program hreason
  have hreachable := h.submit exchange program
  rw [hsubmit] at hreachable ⊢
  obtain ⟨-, -, -, hhistory⟩ :=
    hreachable.stays (n := s.requests.size) (Array.getElem?_push_size) hgone later
  rw [hhistory]
  refine (history_congr (s := s.record s.requests.size _) rfl).trans ?_
  rw [history_record, h.sound.numbered.history_size]
  rfl

theorem Reachable.silent (h : s.Reachable) (hr : s.requests[n]? = some r)
    (hstage : r.stage = .refusing reason false) (later : List (Move σ)) :
    ∃ r' fault?, (s.performAll later).requests[n]? = some r' ∧
      (r'.stage = .refusing reason false ∧ (s.performAll later).history n = [] ∨
        r'.stage = .gone (.refused reason) ∧ (s.performAll later).history n =
          [report s.hooks (.rejected n reason.message), .call (.reject reason fault?)]) := by
  obtain ⟨qos, exchange, program, inputs, hrun⟩ := h.run hr
  obtain ⟨hnothing, hcleaners, -⟩ := hrun.entering (by rw [hstage]; rfl)
  obtain ⟨r', hr', -, hcourse⟩ := h.refusing hr (by rw [hstage]; rfl) later
  rw [hnothing, hstage] at hcourse
  rcases hcourse with ⟨hstage', -, hhistory⟩ | ⟨hgone, fault?, swept, hhistory, -, hempty⟩
  · exact ⟨r', none, hr', .inl ⟨hstage', hhistory⟩⟩
  · rw [hempty hcleaners] at hhistory
    exact ⟨r', fault?, hr', .inr ⟨hgone, hhistory⟩⟩

/-- After every run, a request that asks for a slot and a submission are let in exactly if the
scheduler is not stopped and the cap is not reached, and otherwise refused for the one of these that
fails, which leaves all the rest as it is. -/
theorem performAll_decides {config : Config} {hooks : Hooks} (h : start? config hooks = .ok s)
    (moves : List (Move σ)) : (s.performAll moves).Decides config.maxInFlight := by
  have hstart := reachable_of_start? h
  obtain ⟨-, rfl⟩ := start?_eq_ok h
  have hreachable := hstart.performAll moves
  have hcap : config.maxInFlight =
      ((new config hooks : Scheduler σ).performAll moves).config.maxInFlight := by
    rw [(hstart.frame_performAll moves).1]
    rfl
  rw [hcap]
  refine {
    admits := fun hr hstage ↦ ?admits
    declines := fun hr hstage ↦ ?declines
    refuses := fun {n r reason admitted} hr hstage ↦ ?refuses
    accepts := fun exchange program ↦ ?accepts
    fails := fun exchange program reason ↦ ?fails
    turnsAway := fun exchange program reason hfails ↦ ?turnsAway
    silent := fun hr hstage later ↦ hreachable.silent hr hstage later }
  case admits => rw [hreachable.admits_iff hr hstage, hreachable.objection?_eq_none_iff]
  case declines => rw [hreachable.declines_iff hr hstage, hreachable.objection?_eq_some_iff]
  case refuses =>
    obtain ⟨r', swept, hrefused, hordinal, hgone, hprogram, hswept, -⟩ :=
      hreachable.advance_refusing_eq hr hstage
    refine ⟨r', swept, hrefused, hordinal, hgone, hprogram, hswept, ?_⟩
    rintro rfl
    exact hreachable.placed.outstanding_pos hr (by rw [hstage]; rfl)
  case accepts => rw [hreachable.accepts_iff, hreachable.objection?_eq_none_iff]
  case fails => rw [hreachable.fails_iff, hreachable.objection?_eq_some_iff]
  case turnsAway =>
    have hreason := (hreachable.fails_iff exchange program).mp hfails
    refine ⟨?_, hreachable.turnsAway exchange program hreason⟩
    obtain ⟨r', hsubmit, hgone, hprogram⟩ := hreachable.submit_of_objection exchange program hreason
    exact ⟨r', by rw [hsubmit]; rfl, hgone, hprogram⟩

/-- One worker, and nobody may wait. -/
def noWaiting : Config := { Config.sized 1 with maxInFlight := 1 }

/-- With the only slot taken and no room to wait, a second request is refused for the cap, and its
exchange hears of that and of nothing else. -/
theorem performAll_decides_noWaiting :
    ∃ s : Scheduler Scripted, start? noWaiting (.plain .normal) = .ok s ∧
      ((s.performAll [.arrive (.new default) (.pure .unit), .advance 0]).submit
        (.new default) (.pure .unit)).1 = .error (.capacityExceeded 1) ∧
      ∀ later, (((s.performAll [.arrive (.new default) (.pure .unit), .advance 0]).submit
          (.new default) (.pure .unit)).2.performAll later).history 1 =
        [.sensed (.rejected 1 "capacity exceeded: 1 requests in flight") none,
          .call (.reject (.capacityExceeded 1) none)] := by
  have hstart : start? noWaiting (.plain .normal) =
      .ok (.new noWaiting (.plain .normal) : Scheduler Scripted) := rfl
  have hdecides := performAll_decides hstart
    [.arrive (.new default) (.pure .unit), .advance 0]
  have hfails := (hdecides.fails (.new default) (.pure .unit) (.capacityExceeded 1)).mpr
    (.inr ⟨rfl, by decide, by decide⟩)
  exact ⟨_, hstart, hfails, (hdecides.turnsAway _ _ _ hfails).2⟩

end Scheduler

end Turnstile
