import Turnstile.Proofs.Request.Refusal

/-!
# Requests about to be refused

A request that is to be refused stands still until it is, whatever comes from outside: its program
has run for the last time, and nothing is told of it but its refusal. Of a request that is declined
when it arrives nothing is told before either, since until the decision on it a request is as it
came.
-/

namespace Turnstile

/-- It is heard of while cleaners are swept: something happened to a cleaner, or the sensor is told
that one broke off. -/
def Happening.ofCleanup (h : Happening) : Bool := h.cleaner?.isSome || h.reportsCleanup

namespace Stage

/-- The refusal that a request is about to be given. -/
def refusal? : Stage → Option Refusal
  | .refusing reason _ => some reason
  | .drained => some .shutdown
  | _ => none

theorem refusal?_eq_some_iff {stage : Stage} {reason : Refusal} :
    stage.refusal? = some reason ↔
      (∃ admitted, stage = .refusing reason admitted) ∨ stage = .drained ∧ reason = .shutdown := by
  cases stage <;> simp [refusal?, eq_comm]

/-- The refusal that a request was given or is about to be given. -/
def refusedFor? : Stage → Option Refusal
  | .gone (.refused reason) => some reason
  | stage => stage.refusal?

theorem refusedFor?_eq_some_iff {stage : Stage} {reason : Refusal} :
    stage.refusedFor? = some reason ↔
      stage.refusal? = some reason ∨ stage = .gone (.refused reason) := by
  cases stage with
  | gone ending => cases ending <;> simp [refusedFor?, refusal?]
  | _ => simp [refusedFor?]

theorem refusedFor?_ofFinish (completed? : Option Bool) :
    (Stage.gone (.ofFinish completed?)).refusedFor? = none := by
  rcases completed? with _ | _ | _ <;> rfl

/-- The program of the request is over: it is answered, with a response or with an error, or it has
been. -/
def isAnswering : Stage → Bool
  | .leaving (.readBody _ _) | .departed (.readBody _ _) => false
  | .leaving _ | .departed _ | .writing _ | .failing _ | .finishing | .lost => true
  | .gone (.refused _) => false
  | .gone _ => true
  | _ => false

theorem refusedFor?_of_isAnswering {stage : Stage} (h : stage.isAnswering = true) :
    stage.refusedFor? = none := by
  unfold isAnswering at h
  split at h <;> first | rfl | cases h
  next ending hne =>
    cases ending with
    | refused reason => exact absurd rfl (hne reason)
    | _ => rfl

/-- The request has arrived and has been neither accepted nor refused yet. -/
def isEntering : Stage → Bool
  | .arriving | .refusing _ false => true
  | _ => false

theorem isEntering_iff {stage : Stage} :
    stage.isEntering = true ↔ stage = .arriving ∨ ∃ reason, stage = .refusing reason false := by
  unfold isEntering
  split <;> simp_all

theorem place_of_isEntering {stage : Stage} (h : stage.isEntering = true) :
    stage.place = .outside := by
  rcases isEntering_iff.mp h with rfl | ⟨reason, rfl⟩ <;> rfl

end Stage

namespace Request

variable {σ : Type} {hooks : Hooks} {config : Config} {r r' : Request σ} {input : Input}
  {inputs : List Input} {told : List Happening} {reason : Refusal}

/-! ## What is told of a refusal -/

theorem ofCleanup_tellSwept (hooks : Hooks) (ordinal : Nat) (event : Cleanup.Event String) :
    ∀ x ∈ tellSwept hooks ordinal event, x.ofCleanup = true := by
  intro x hx
  unfold tellSwept at hx
  split at hx
  · simp only [List.mem_cons, List.not_mem_nil, or_false] at hx
    rcases hx with rfl | rfl <;> rfl
  · rw [List.mem_singleton.mp hx]
    rfl

theorem ofCleanup_sweep (hooks : Hooks) (r : Request σ) :
    ∀ x ∈ (Request.sweep hooks r).2, x.ofCleanup = true := by
  intro x hx
  obtain ⟨event, -, hevent⟩ := List.mem_flatMap.mp hx
  exact ofCleanup_tellSwept hooks r.ordinal event x hevent

variable [Exchange σ]

/-- A refusal is told to the sensor and to the exchange, and then the cleaners are swept if there
are any and the exchange took it. The program is left alone. -/
theorem exists_refuse (hooks : Hooks) (hopen : r.closed = false) (reason : Refusal) :
    (Request.refuse hooks r reason).1.program = r.program ∧
      ∃ swept, (Request.refuse hooks r reason).2 =
          report hooks (.rejected r.ordinal reason.message) ::
            .call (.reject reason (Exchange.reject r.exchange reason).1) :: swept ∧
        (∀ x ∈ swept, x.ofCleanup = true) ∧ (r.dossier.cleaners = .empty → swept = []) := by
  unfold Request.refuse
  rw [if_neg (by simp [hopen])]
  dsimp only
  split
  next f exchange hreject =>
    rw [hreject]
    exact ⟨rfl, [], rfl, by simp, fun _ ↦ rfl⟩
  next exchange hreject =>
    rw [hreject]
    refine ⟨rfl, _, rfl, ofCleanup_sweep hooks _, ?_⟩
    intro hempty
    simp only [Request.sweep, hempty]
    rfl

/-! ## Requests that are to be refused -/

theorem Step.of_refusal (h : Step hooks config r input r' told)
    (hrefusal : r.stage.refusal? = some reason) :
    told = [] ∧ r'.stage = r.stage ∧ r'.dossier = r.dossier ∧ r'.program = r.program ∧
        r'.closed = r.closed ∨
      told = (Request.refuse hooks r reason).2 ∧ r'.stage = .gone (.refused reason) ∧
        r'.program = (Request.refuse hooks r reason).1.program := by
  have hstage := Stage.refusal?_eq_some_iff.mp hrefusal
  -- no other stage is one of a request about to be refused
  have hne {stage : Stage} (hother : stage.refusal? = none) : r.stage ≠ stage := by
    intro hsame
    rw [hsame, hother] at hrefusal
    cases hrefusal
  cases h with
  | stay => exact .inl ⟨rfl, rfl, rfl, rfl, rfl⟩
  | keepRank qos => exact .inl ⟨rfl, rfl, rfl, rfl, rfl⟩
  | rank qos h => exact absurd h (hne rfl)
  | pass h => rcases hstage with ⟨admitted, hstage⟩ | ⟨hstage, -⟩ <;> rw [hstage] at h <;> cases h
  | own h =>
    cases h with
    | turn h => exact absurd h (hne rfl)
    | depart h => exact absurd h (hne rfl)
    | receive h => rcases hstage with ⟨_, hstage⟩ | ⟨hstage, -⟩ <;> simp [nextEvent?, hstage] at h
    | deliver events direction => cases direction <;> exact .inl ⟨rfl, rfl, rfl, rfl, rfl⟩
    | wake h => exact .inl ⟨rfl, rfl, rfl, rfl, rfl⟩
    | forget h => rcases hstage with ⟨_, hstage⟩ | ⟨hstage, -⟩ <;> simp [isWaiting, hstage] at h
    | detach h => exact .inl ⟨rfl, rfl, rfl, rfl, rfl⟩
  | fail h => exact absurd h (hne rfl)
  | finish h => exact absurd h (hne rfl)
  | refuse h =>
    rw [Stage.refusal?_eq_some_iff.mpr h] at hrefusal
    cases hrefusal
    exact .inr ⟨rfl, rfl, rfl⟩

theorem Step.refusedFor?_of_some (h : Step hooks config r input r' told)
    (hrefused : r.stage.refusedFor? = some reason) : r'.stage.refusedFor? = some reason := by
  rcases Stage.refusedFor?_eq_some_iff.mp hrefused with hrefusal | hgone
  · rcases h.of_refusal hrefusal with ⟨-, hstage, -⟩ | ⟨-, hstage, -⟩
    · rw [hstage]
      exact hrefused
    · rw [hstage]
      rfl
  · obtain ⟨-, hstage, -⟩ := h.of_gone hgone
    rw [hstage]
    exact hrefused

theorem refusedFor?_depart (maxBodyBytes chunkSize : Nat) (exit : Exit) :
    (r.depart maxBodyBytes chunkSize exit).1.stage.refusedFor? = none := by
  cases exit with
  | respond response =>
    rw [depart, beginResponse]
    split
    split
    split <;> rfl
  | readBody limit next =>
    rw [depart, beginRead]
    split
    split <;> rfl
  | fail failure => rfl

theorem refusedFor?_receive {event : IoEvent} (h : r.nextEvent? = some (event, r')) :
    (r'.receive event).1.stage.refusedFor? = none := by
  rcases nextEvent?_eq_some h with ⟨reader, next, box, rest, hstage, -, -, rfl⟩ |
    ⟨writer, box, rest, hstage, -, -, rfl⟩
  · rw [receive]
    simp only [hstage]
    unfold receiveRead
    split <;> rfl
  · rw [receive]
    simp only [hstage]
    unfold receiveWrite
    split <;> rfl

theorem Own.refusedFor? (h : Own hooks config r input r' told) (hw : r.WellFormed)
    (hserved : r.stage.refusedFor? = none) : r'.stage.refusedFor? = none := by
  cases h with
  | turn h =>
    have hturned := turned_turn (hw.program (by rw [h]; rfl))
    exact hturned.stage (P := (·.refusedFor? = none)) rfl rfl fun _ ↦ rfl
  | depart h => exact refusedFor?_depart _ _ _
  | receive h => exact refusedFor?_receive h
  | deliver events direction => cases direction <;> exact hserved
  | wake h => exact hserved
  | forget h => rfl
  | detach h => exact hserved

/-- A request that comes to be refused asked for a slot or waited for one. -/
theorem Step.refusedFor?_of_none (h : Step hooks config r input r' told) (hw : r.WellFormed)
    (hserved : r.stage.refusedFor? = none) (hrefused : r'.stage.refusedFor? = some reason) :
    r.stage = .arriving ∨ r.stage = .returning ∨ r.stage = .queued ∧ r'.stage = .drained := by
  cases h with
  | stay => simp [hserved] at hrefused
  | keepRank qos => simp [hserved] at hrefused
  | rank qos h => simp [hserved] at hrefused
  | pass h =>
    generalize r.stage = before at h ⊢
    cases h with
    | declined reason => exact .inl rfl
    | turnedAway reason => exact .inr (.inl rfl)
    | dismissed => exact .inr (.inr ⟨rfl, rfl⟩)
    | _ => cases hrefused
  | own h => simp [h.refusedFor? hw hserved] at hrefused
  | fail h => cases hrefused
  | finish h =>
    have hnone := Stage.refusedFor?_ofFinish (Request.finish hooks r).1
    exact absurd (hnone.symm.trans hrefused) (by simp)
  | refuse h =>
    have hrefusal := Stage.refusal?_eq_some_iff.mpr h
    rw [Stage.refusedFor?_eq_some_iff.mpr (.inl hrefusal)] at hserved
    cases hserved

/-! ## Requests whose program is over -/

theorem isAnswering_depart (maxBodyBytes chunkSize : Nat) {exit : Exit}
    (h : (Stage.departed exit).isAnswering = true) :
    (r.depart maxBodyBytes chunkSize exit).1.stage.isAnswering = true := by
  cases exit with
  | respond response =>
    rw [depart, beginResponse]
    split
    split
    split <;> rfl
  | readBody limit next => cases h
  | fail failure => rfl

theorem isAnswering_receive {event : IoEvent} (h : r.nextEvent? = some (event, r'))
    (hanswering : r.stage.isAnswering = true) :
    (r'.receive event).1.stage.isAnswering = true := by
  rcases nextEvent?_eq_some h with ⟨reader, next, box, rest, hstage, -, -, rfl⟩ |
    ⟨writer, box, rest, hstage, -, -, rfl⟩
  · rw [hstage] at hanswering
    cases hanswering
  · rw [receive]
    simp only [hstage]
    unfold receiveWrite
    split <;> rfl

theorem isAnswering_ofFinish (completed? : Option Bool) :
    (Stage.gone (.ofFinish completed?)).isAnswering = true := by
  rcases completed? with _ | _ | _ <;> rfl

theorem Step.isAnswering (h : Step hooks config r input r' told)
    (hanswering : r.stage.isAnswering = true) : r'.stage.isAnswering = true := by
  have hne {stage : Stage} (hstage : r.stage = stage) : stage.isAnswering = true :=
    hstage ▸ hanswering
  cases h with
  | stay => exact hanswering
  | keepRank qos => exact hanswering
  | rank qos h => exact hanswering
  | pass h =>
    generalize r.stage = before at h hanswering
    cases h with
    | left exit => cases exit <;> exact hanswering
    | _ => cases hanswering
  | own h =>
    cases h with
    | turn h => cases hne h
    | depart h => exact isAnswering_depart _ _ (hne h)
    | receive h => exact isAnswering_receive h hanswering
    | deliver events direction => cases direction <;> exact hanswering
    | wake h => exact hanswering
    | forget h => rfl
    | detach h => exact hanswering
  | fail h => rfl
  | finish h => exact isAnswering_ofFinish _
  | refuse h =>
    rcases h with ⟨admitted, hstage⟩ | ⟨hstage, -⟩ <;> cases hne hstage

theorem Run.isAnswering (h : Run hooks config r inputs r' told)
    (hanswering : r.stage.isAnswering = true) : r'.stage.isAnswering = true := by
  induction h with
  | start => exact hanswering
  | step h s ih => exact s.isAnswering ih

/-! ## Requests that have not been let in -/

theorem Step.entering (h : Step hooks config r input r' told) (hw : r.WellFormed)
    (hentering : r'.stage.isEntering = true) :
    r.stage.isEntering = true ∧ told = [] ∧ r'.dossier = r.dossier ∧ r'.program = r.program := by
  -- whoever is inside after the step is not entering
  have hoff (hplace : r'.stage.place = .away) : False := by
    rw [Stage.place_of_isEntering hentering] at hplace
    cases hplace
  cases h with
  | stay => exact ⟨hentering, rfl, rfl, rfl⟩
  | keepRank qos => exact ⟨hentering, rfl, rfl, rfl⟩
  | rank qos h =>
    rw [h] at hentering
    cases hentering
  | pass h =>
    generalize r.stage = before at h ⊢
    cases h with
    | declined reason => exact ⟨rfl, rfl, rfl, rfl⟩
    | _ => cases hentering
  | own h =>
    cases h with
    | turn h =>
      have hturned := turned_turn (hw.program (by rw [h]; rfl))
      have hnot : r.turn.1.stage.isEntering = false :=
        hturned.stage (P := (·.isEntering = false)) rfl rfl fun _ ↦ rfl
      rw [hnot] at hentering
      cases hentering
    | depart h => exact (hoff (moved_depart _ _ (hw.ne_noProgram (.inr h))).place).elim
    | receive h => exact (hoff (moved_receive h).2.2.place).elim
    | deliver events direction => cases direction <;> exact ⟨hentering, rfl, rfl, rfl⟩
    | wake h => exact ⟨hentering, rfl, rfl, rfl⟩
    | forget h => cases hentering
    | detach h => exact ⟨hentering, rfl, rfl, rfl⟩
  | fail h => exact (hoff (moved_fail hooks r _).place).elim
  | finish h => cases hentering
  | refuse h => cases hentering

/-- A request that leaves without having been let in is refused. -/
theorem Step.gone_of_entering (h : Step hooks config r input r' told) (hw : r.WellFormed)
    (hentering : r.stage.isEntering = true) {ending : Ending} (hgone : r'.stage = .gone ending) :
    ∃ reason, ending = .refused reason := by
  have hne {stage : Stage} (hstage : r.stage = stage) : stage.isEntering = true :=
    hstage ▸ hentering
  cases h with
  | stay => cases hne hgone
  | keepRank qos => cases hne hgone
  | rank qos h => cases hne h
  | pass h =>
    change _ = _ at hgone
    subst hgone
    generalize r.stage = before at h
    cases h
  | own h => cases hne (h.stage_of_gone hw hgone)
  | fail h => cases hne h
  | finish h => cases hne h
  | refuse h =>
    cases hgone
    exact ⟨_, rfl⟩

/-- After every run from its arrival, a request that has not been let in is as it came. -/
theorem Run.entering {ordinal : Nat} {qos : Qos} {exchange : σ} {program : Program}
    (h : Run hooks config (new ordinal qos exchange program) inputs r told)
    (hentering : r.stage.isEntering = true) :
    told = [] ∧ r.dossier.cleaners = .empty ∧ r.program = some program := by
  induction h with
  | start => exact ⟨rfl, rfl, rfl⟩
  | step h s ih =>
    obtain ⟨hw, -⟩ := h.chronicle
    obtain ⟨hbefore, rfl, hdossier, hprogram⟩ := s.entering hw hentering
    obtain ⟨rfl, hcleaners, hprogram'⟩ := ih hbefore
    exact ⟨rfl, by rw [hdossier, hcleaners], hprogram.trans hprogram'⟩

end Request

end Turnstile
