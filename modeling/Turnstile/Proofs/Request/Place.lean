import Turnstile.Proofs.Request.Step

/-!
# Where a request is

A request that was accepted is in the queue, on a slot, or off its slot. `Stage.place` reads this
off the stage, with the two ways to hold a slot and the two ways to be off it told apart, since a
list of the scheduler belongs to one of each. A move of a request by itself leaves the place as it
is, and the program stays with the request wherever a worker will look for it.
-/

namespace Turnstile

/-- Where a request is. -/
inductive Place where
  /-- It has not been accepted, or it has left. -/
  | outside
  /-- In the queue. -/
  | queue
  /-- On a slot, waiting for a worker to pick it up. -/
  | job
  /-- On a slot, with a worker. -/
  | worker
  /-- Off its slot, taken out of the queue because the scheduler was stopped. -/
  | drain
  /-- Off its slot, on its way through a conduit, back to a slot, or out. -/
  | away
  deriving DecidableEq, Repr

namespace Place

/-- The request was accepted and has not left. -/
def inside : Place → Bool
  | .outside => false
  | _ => true

/-- The request waits in the queue. -/
def waiting : Place → Bool
  | .queue => true
  | _ => false

/-- The request holds a slot. -/
def onSlot : Place → Bool
  | .job | .worker => true
  | _ => false

/-- The request was accepted and is off its slot. -/
def offSlot : Place → Bool
  | .drain | .away => true
  | _ => false

end Place

namespace Stage

/-- The place that a stage is at. -/
def place : Stage → Place
  | .arriving | .refusing _ false | .gone _ => .outside
  | .queued => .queue
  | .ready => .job
  | .running | .gated | .leaving _ => .worker
  | .drained => .drain
  | .departed _ | .reading _ _ | .writing _ | .returning | .failing _ | .finishing
  | .refusing _ true | .lost => .away

/-- A worker will look for a program. -/
def hasProgram : Stage → Bool
  | .arriving | .queued | .ready | .running | .gated | .returning => true
  | _ => false

/-- The request is over. -/
def isOver : Stage → Bool
  | .gone _ | .lost => true
  | _ => false

/-- The request fails, or is about to, because a worker found no program. -/
def lacksProgram : Stage → Bool
  | .leaving (.fail .noProgram) | .departed (.fail .noProgram) | .failing .noProgram => true
  | _ => false

theorem lacksProgram_leaving {exit : Exit} (h : exit ≠ .fail .noProgram) :
    (leaving exit).lacksProgram = false := by
  unfold lacksProgram
  split
  next heq => cases heq; exact absurd rfl h
  next heq => cases heq
  next heq => cases heq
  · rfl

theorem lacksProgram_departed {exit : Exit} (h : exit ≠ .fail .noProgram) :
    (departed exit).lacksProgram = false := by
  unfold lacksProgram
  split
  next heq => cases heq
  next heq => cases heq; exact absurd rfl h
  next heq => cases heq
  · rfl

end Stage

namespace Request

variable {σ : Type} [Exchange σ] {hooks : Hooks} {config : Config} {r r' : Request σ}
  {input : Input} {told : List Happening}

/-- What a request itself has to keep. -/
structure WellFormed (r : Request σ) : Prop where
  /-- The program is there wherever a worker will look for it. -/
  program : r.stage.hasProgram = true → r.program.isSome = true
  /-- No worker found the program missing. -/
  found : r.stage.lacksProgram = false
  /-- A request is open until it is over. -/
  closed : r.stage.isOver = false → r.closed = false

/-! ## What the moves leave as it is -/

/-- What a turn leads to: the request goes on with its worker, or it leaves. -/
structure Turned (r r' : Request σ) : Prop where
  /-- Only the dossier, the program and the stage change. -/
  frame : r' = { r with dossier := r'.dossier, program := r'.program, stage := r'.stage }
  /-- The request goes on with a program, or leaves and was not missing one. -/
  next : (r'.stage = .running ∨ r'.stage = .gated) ∧ r'.program.isSome = true ∨
    ∃ exit, r'.stage = .leaving exit ∧ exit ≠ .fail .noProgram

omit [Exchange σ] in
theorem Turned.stage {P : Stage → Prop} (h : Turned r r') (running : P .running) (gated : P .gated)
    (leaving : ∀ exit, P (.leaving exit)) : P r'.stage := by
  rcases h.next with ⟨hnext | hnext, -⟩ | ⟨exit, hnext, -⟩ <;> rw [hnext]
  · exact running
  · exact gated
  · exact leaving exit

omit [Exchange σ] in
theorem turned_react (r : Request σ) (next : Value → Program) (reaction : Reaction) :
    Turned r (r.react next reaction).1 := by
  cases reaction with
  | resume v d => exact ⟨rfl, .inl ⟨.inl rfl, rfl⟩⟩
  | enter p d => exact ⟨rfl, .inl ⟨.inl rfl, rfl⟩⟩
  | respond response => exact ⟨rfl, .inr ⟨_, rfl, by simp⟩⟩
  | readBody limit => exact ⟨rfl, .inr ⟨_, rfl, by simp⟩⟩
  | fault f d => exact ⟨rfl, .inr ⟨_, rfl, by simp⟩⟩
  | act action =>
    cases action with
    | note text => exact ⟨rfl, .inl ⟨.inl rfl, rfl⟩⟩
    | gate => exact ⟨rfl, .inl ⟨.inr rfl, rfl⟩⟩
    | look handle => exact ⟨rfl, .inl ⟨.inl rfl, rfl⟩⟩

theorem turned_proceed (r : Request σ) (outcome : Routine.Outcome Operation Value) :
    Turned r (r.proceed outcome).1 := by
  cases outcome with
  | finished value =>
    cases value with
    | response response => exact ⟨rfl, .inr ⟨_, rfl, by simp⟩⟩
    | _ => exact ⟨rfl, .inr ⟨_, rfl, by simp⟩⟩
  | suspended op next => exact turned_react r next _
  | faulted f => exact ⟨rfl, .inr ⟨_, rfl, by simp⟩⟩

theorem turned_turn (h : r.program.isSome = true) : Turned r r.turn.1 := by
  obtain ⟨p, hp⟩ := Option.isSome_iff_exists.mp h
  -- the worker takes the program out first, so what a turn leads to is said without it
  have hturn : r.turn = { r with program := none }.proceed p.run := by rw [turn, hp]
  have hproceed := turned_proceed { r with program := none } p.run
  rw [hturn]
  exact ⟨hproceed.frame, hproceed.next⟩

/-- What a move off the slot leads to. -/
structure Moved (r r' : Request σ) : Prop where
  /-- The ordinal stays. -/
  ordinal : r'.ordinal = r.ordinal
  /-- The request stays open. -/
  closed : r'.closed = r.closed
  /-- The request stays off its slot, and is not over. -/
  place : r'.stage.place = .away
  /-- The request is not over. -/
  open' : r'.stage.isOver = false
  /-- A request that goes back to a slot has a program. -/
  program : r'.stage.hasProgram = true → r'.program.isSome = true
  /-- The program was not missing. -/
  found : r'.stage.lacksProgram = false

theorem moved_depart (maxBodyBytes chunkSize : Nat) {exit : Exit} (h : exit ≠ .fail .noProgram) :
    Moved r (r.depart maxBodyBytes chunkSize exit).1 := by
  cases exit with
  | respond response =>
    rw [depart, beginResponse]
    split
    split
    split <;> exact ⟨rfl, rfl, rfl, rfl, by simp [Stage.hasProgram], rfl⟩
  | readBody limit next =>
    rw [depart, beginRead]
    split
    split <;> exact ⟨rfl, rfl, rfl, rfl, by simp [Stage.hasProgram], rfl⟩
  | fail failure =>
    refine ⟨rfl, rfl, rfl, rfl, by simp [depart, Stage.hasProgram], ?_⟩
    cases failure with
    | noProgram => exact absurd rfl h
    | _ => rfl

omit [Exchange σ] in
theorem moved_receiveRead (r : Request σ) (reader : BodyReader) (next : Value → Program)
    (event : IoEvent) : Moved r (r.receiveRead reader next event) := by
  unfold receiveRead
  split <;> exact ⟨rfl, rfl, rfl, rfl, by simp [Stage.hasProgram, endRead, resume, keep], rfl⟩

theorem moved_receiveWrite (r : Request σ) (writer : ResponseWriter) (event : IoEvent) :
    Moved r (r.receiveWrite writer event).1 := by
  unfold receiveWrite
  split <;> exact ⟨rfl, rfl, rfl, rfl, by simp [Stage.hasProgram, endWrite], rfl⟩

omit [Exchange σ] in
theorem nextEvent?_eq_some {event : IoEvent} (h : r.nextEvent? = some (event, r')) :
    (∃ reader next box rest, r.stage = .reading reader next ∧ r.reads = some box ∧
        box.pop? = some (event, rest) ∧ r' = { r with reads := some rest }) ∨
      ∃ writer box rest, r.stage = .writing writer ∧ r.writes = some box ∧
        box.pop? = some (event, rest) ∧ r' = { r with writes := some rest } := by
  unfold nextEvent? at h
  split at h
  next reader next hstage =>
    left
    obtain ⟨⟨event', rest⟩, hpop, heq⟩ := Option.map_eq_some_iff.mp h
    cases heq
    obtain ⟨box, hbox, hpop⟩ := Option.bind_eq_some_iff.mp hpop
    exact ⟨reader, next, box, rest, hstage, hbox, hpop, rfl⟩
  next writer hstage =>
    right
    obtain ⟨⟨event', rest⟩, hpop, heq⟩ := Option.map_eq_some_iff.mp h
    cases heq
    obtain ⟨box, hbox, hpop⟩ := Option.bind_eq_some_iff.mp hpop
    exact ⟨writer, box, rest, hstage, hbox, hpop, rfl⟩
  · cases h

theorem moved_receive {event : IoEvent} (h : r.nextEvent? = some (event, r')) :
    r.stage.place = .away ∧ r.stage.isOver = false ∧ Moved r (r'.receive event).1 := by
  rcases nextEvent?_eq_some h with ⟨reader, next, box, rest, hstage, -, -, rfl⟩ |
    ⟨writer, box, rest, hstage, -, -, rfl⟩
  · refine ⟨by rw [hstage]; rfl, by rw [hstage]; rfl, ?_⟩
    rw [receive]
    simp only [hstage]
    have hmoved := moved_receiveRead { r with reads := some rest } reader next event
    exact ⟨hmoved.ordinal, hmoved.closed, hmoved.place, hmoved.open', hmoved.program, hmoved.found⟩
  · refine ⟨by rw [hstage]; rfl, by rw [hstage]; rfl, ?_⟩
    rw [receive]
    simp only [hstage]
    have hmoved := moved_receiveWrite { r with writes := some rest } writer event
    exact ⟨hmoved.ordinal, hmoved.closed, hmoved.place, hmoved.open', hmoved.program, hmoved.found⟩

omit [Exchange σ] in
theorem drop_frame (hooks : Hooks) (r : Request σ) :
    (r.drop hooks).1 =
      { r with dossier := (r.drop hooks).1.dossier, closed := true } := by
  unfold drop
  split
  next h => rw [← h]
  · rfl

theorem finish_ordinal (hooks : Hooks) (r : Request σ) :
    (Request.finish hooks r).2.1.ordinal = r.ordinal := by
  unfold Request.finish
  split <;> rfl

theorem refuse_ordinal (hooks : Hooks) (r : Request σ) (reason : Refusal) :
    (Request.refuse hooks r reason).1.ordinal = r.ordinal := by
  unfold Request.refuse
  split
  · rfl
  · dsimp only
    split <;> rfl

theorem sendError_frame (r : Request σ) (response : Response) :
    (r.sendError response).1 =
      { r with exchange := (r.sendError response).1.exchange } := by
  unfold sendError
  split
  split
  · rfl
  · split
    rfl

/-! ## What becomes of the dossier -/

omit [Exchange σ] in
theorem dossier_receiveRead (r : Request σ) (reader : BodyReader) (next : Value → Program)
    (event : IoEvent) : (r.receiveRead reader next event).dossier = r.dossier := by
  unfold receiveRead
  split <;> rfl

theorem dossier_receive {event : IoEvent} (h : r.nextEvent? = some (event, r')) :
    (r'.receive event).1.dossier = r.dossier := by
  rcases nextEvent?_eq_some h with ⟨reader, next, box, rest, hstage, -, -, rfl⟩ |
    ⟨writer, box, rest, hstage, -, -, rfl⟩
  · rw [receive]
    simp only [hstage]
    exact dossier_receiveRead _ reader next event
  · rw [receive]
    simp only [hstage]
    unfold receiveWrite
    split <;> rfl

theorem dossier_fail (hooks : Hooks) (r : Request σ) (failure : Failure) :
    (Request.fail hooks r failure).1.dossier = r.dossier := by
  have hsent := sendError_frame r (hooks.errorResponse r.ordinal r.metadata)
  exact congrArg (·.dossier) hsent

/-! ## Moves of its own -/

/-- A move of its own leads a request from a place to the same place, and it stays in order. -/
structure Kept (r r' : Request σ) : Prop where
  /-- The ordinal stays. -/
  ordinal : r'.ordinal = r.ordinal
  /-- The place stays. -/
  place : r'.stage.place = r.stage.place
  /-- While the request waits in the queue, its class stays. -/
  qos : r.stage = .queued → r'.dossier.qos = r.dossier.qos
  /-- The request stays well formed. -/
  wellFormed : r'.WellFormed

omit [Exchange σ] in
theorem Turned.kept (h : Turned r r') (hw : r.WellFormed) (hstage : r.stage = .running) :
    Kept r r' := by
  have hopen : r'.closed = false := by
    rw [h.frame]
    exact hw.closed (by rw [hstage]; rfl)
  have hqos : r.stage = .queued → r'.dossier.qos = r.dossier.qos := by simp [hstage]
  have hordinal : r'.ordinal = r.ordinal := by rw [h.frame]
  rcases h.next with ⟨hnext | hnext, hprogram⟩ | ⟨exit, hnext, hexit⟩
  · exact ⟨hordinal, by rw [hnext, hstage], hqos,
      ⟨fun _ ↦ hprogram, by rw [hnext]; rfl, fun _ ↦ hopen⟩⟩
  · exact ⟨hordinal, by rw [hnext, hstage]; rfl, hqos,
      ⟨fun _ ↦ hprogram, by rw [hnext]; rfl, fun _ ↦ hopen⟩⟩
  · refine ⟨hordinal, by rw [hnext, hstage]; rfl, hqos,
      ⟨by simp [hnext, Stage.hasProgram], ?_, fun _ ↦ hopen⟩⟩
    rw [hnext, Stage.lacksProgram_leaving hexit]

omit [Exchange σ] in
theorem Moved.kept (h : Moved r r') (hw : r.WellFormed) (hplace : r.stage.place = .away)
    (hover : r.stage.isOver = false) : Kept r r' where
  ordinal := h.ordinal
  place := h.place.trans hplace.symm
  qos hstage := by rw [hstage] at hplace; cases hplace
  wellFormed := ⟨h.program, h.found, fun _ ↦ h.closed.trans (hw.closed hover)⟩

omit [Exchange σ] in
theorem WellFormed.congr (hw : r.WellFormed) (hstage : r'.stage = r.stage)
    (hprogram : r'.program = r.program) (hclosed : r'.closed = r.closed) : r'.WellFormed :=
  ⟨by rw [hstage, hprogram]; exact hw.program, by rw [hstage]; exact hw.found,
    by rw [hstage, hclosed]; exact hw.closed⟩

omit [Exchange σ] in
theorem WellFormed.ne_noProgram {exit : Exit} (hw : r.WellFormed)
    (h : r.stage = .leaving exit ∨ r.stage = .departed exit) : exit ≠ .fail .noProgram := by
  rintro rfl
  have hfound := hw.found
  rcases h with h | h <;> rw [h] at hfound <;> cases hfound

omit [Exchange σ] in
theorem WellFormed.pass {stage : Stage} (hw : r.WellFormed) (h : Passes r.stage stage) :
    { r with stage }.WellFormed where
  program hstage := hw.program (by
    cases hr : r.stage <;> rw [hr] at h <;> cases h <;> first | rfl | cases hstage)
  found := by
    cases hr : r.stage <;> rw [hr] at h <;> cases h
    case leaving.left exit =>
      exact Stage.lacksProgram_departed (hw.ne_noProgram (.inl hr))
    all_goals rfl
  closed _ := hw.closed (by cases hr : r.stage <;> rw [hr] at h <;> cases h <;> rfl)

omit [Exchange σ] in
theorem WellFormed.kept_pass {stage : Stage} (hw : r.WellFormed) (h : Passes r.stage stage)
    (hplace : stage.place = r.stage.place) : Kept r { r with stage } where
  ordinal := rfl
  place := hplace
  qos _ := rfl
  wellFormed := hw.pass h

omit [Exchange σ] in
theorem WellFormed.over {stage : Stage} (h : stage.isOver = true) :
    { r with stage }.WellFormed := by
  cases stage with
  | gone ending => exact ⟨by simp [Stage.hasProgram], rfl, by simp [Stage.isOver]⟩
  | lost => exact ⟨by simp [Stage.hasProgram], rfl, by simp [Stage.isOver]⟩
  | _ => cases h

theorem wellFormed_new (ordinal : Nat) (qos : Qos) (exchange : σ) (program : Program) :
    (new ordinal qos exchange program).WellFormed :=
  ⟨fun _ ↦ rfl, rfl, fun _ ↦ rfl⟩

theorem moved_fail (hooks : Hooks) (r : Request σ) (failure : Failure) :
    Moved r (Request.fail hooks r failure).1 := by
  have hsent := sendError_frame r (hooks.errorResponse r.ordinal r.metadata)
  exact ⟨congrArg (·.ordinal) hsent, congrArg (·.closed) hsent, rfl, rfl,
    by simp [Request.fail, Stage.hasProgram], rfl⟩

theorem Own.kept (h : Own hooks config r input r' told) (hw : r.WellFormed) : Kept r r' := by
  cases h with
  | turn hstage =>
    exact (turned_turn (hw.program (by rw [hstage]; rfl))).kept hw hstage
  | depart hstage =>
    exact (moved_depart _ _ (hw.ne_noProgram (.inr hstage))).kept hw
      (by rw [hstage]; rfl) (by rw [hstage]; rfl)
  | receive hevent =>
    obtain ⟨hplace, hover, hmoved⟩ := moved_receive hevent
    exact hmoved.kept hw hplace hover
  | deliver events direction =>
    cases direction with
    | read => exact ⟨rfl, rfl, fun _ ↦ rfl, hw.congr rfl rfl rfl⟩
    | write => exact ⟨rfl, rfl, fun _ ↦ rfl, hw.congr rfl rfl rfl⟩
  | wake hwake => exact ⟨rfl, rfl, fun _ ↦ rfl, hw.congr rfl rfl rfl⟩
  | forget hwaiting =>
    rw [drop_frame]
    unfold isWaiting at hwaiting
    refine ⟨rfl, ?_, ?_, by simp [Stage.hasProgram], rfl, by simp [Stage.isOver]⟩
    · split at hwaiting
      next hstage => rw [hstage]; rfl
      next hstage => rw [hstage]; rfl
      · cases hwaiting
    · intro hstage
      rw [hstage] at hwaiting
      cases hwaiting
  | detach hwaiting => exact ⟨rfl, rfl, fun _ ↦ rfl, hw.congr rfl rfl rfl⟩

/-! ## Moves of several requests at once -/

theorem promoted_idem (stage : Stage) : stage.promoted.promoted = stage.promoted := by
  cases stage <;> rfl

theorem dismissed_idem (stage : Stage) : stage.dismissed.dismissed = stage.dismissed := by
  cases stage <;> rfl

theorem promoted_passes (stage : Stage) :
    stage.promoted = stage ∨ stage = .queued ∧ Passes stage stage.promoted := by
  cases stage <;> first | exact .inl rfl | exact .inr ⟨rfl, .promoted⟩

theorem dismissed_passes (stage : Stage) :
    stage.dismissed = stage ∨ stage = .queued ∧ Passes stage stage.dismissed := by
  cases stage <;> first | exact .inl rfl | exact .inr ⟨rfl, .dismissed⟩

/-! ## All moves -/

theorem Step.kept (h : Step hooks config r input r' told) (hw : r.WellFormed) :
    r'.ordinal = r.ordinal ∧ r'.WellFormed := by
  cases h with
  | stay => exact ⟨rfl, hw⟩
  | keepRank qos => exact ⟨rfl, hw⟩
  | rank qos h => exact ⟨rfl, hw.congr rfl rfl rfl⟩
  | pass h => exact ⟨rfl, hw.pass h⟩
  | own h =>
    have hkept := h.kept hw
    exact ⟨hkept.ordinal, hkept.wellFormed⟩
  | @fail failure h =>
    have hkept := (moved_fail hooks r failure).kept hw (by rw [h]; rfl) (by rw [h]; rfl)
    exact ⟨hkept.ordinal, hkept.wellFormed⟩
  | finish h => exact ⟨finish_ordinal hooks r, .over rfl⟩
  | @refuse reason h => exact ⟨refuse_ordinal hooks r reason, .over rfl⟩

/-- Only a request that the transport forgets is lost. -/
theorem Step.ne_lost (h : Step hooks config r input r' told) (hw : r.WellFormed)
    (hinput : input ≠ .forgotten) (hr : r.stage ≠ .lost) : r'.stage ≠ .lost := by
  -- most moves leave the request open, which a lost one is not
  have of_open {r' : Request σ} (hopen : r'.stage.isOver = false) : r'.stage ≠ .lost := by
    intro h
    rw [h] at hopen
    cases hopen
  cases h with
  | stay => exact hr
  | keepRank qos => exact hr
  | rank qos h => exact hr
  | pass h =>
    rintro rfl
    cases hstage : r.stage <;> rw [hstage] at h <;> cases h
  | own h =>
    cases h with
    | turn hstage =>
      have hturned := turned_turn (hw.program (by rw [hstage]; rfl))
      exact hturned.stage (P := (· ≠ .lost)) (by simp) (by simp) (by simp)
    | depart hstage => exact of_open (moved_depart _ _ (hw.ne_noProgram (.inr hstage))).open'
    | receive hevent => exact of_open (moved_receive hevent).2.2.open'
    | deliver events direction => cases direction <;> exact hr
    | wake hwake => exact hr
    | forget hwaiting => exact absurd rfl hinput
    | detach hwaiting => exact absurd rfl hinput
  | fail h => exact of_open (moved_fail hooks r _).open'
  | finish h => simp
  | refuse h => simp

/-! ## Leaving -/

/-- A request that has left stays as it left, and nothing is told of it any more. -/
theorem Step.of_gone (h : Step hooks config r input r' told) {ending : Ending}
    (hgone : r.stage = .gone ending) :
    told = [] ∧ r'.stage = r.stage ∧ r'.dossier = r.dossier ∧ r'.closed = r.closed ∧
      r'.ordinal = r.ordinal ∧ r'.program = r.program := by
  cases h with
  | stay => exact ⟨rfl, rfl, rfl, rfl, rfl, rfl⟩
  | keepRank qos => exact ⟨rfl, rfl, rfl, rfl, rfl, rfl⟩
  | rank qos h => exact absurd (hgone.symm.trans h) (by simp)
  | pass h =>
    rw [hgone] at h
    cases h
  | own h =>
    cases h with
    | turn h => exact absurd (hgone.symm.trans h) (by simp)
    | depart h => exact absurd (hgone.symm.trans h) (by simp)
    | receive h => simp [nextEvent?, hgone] at h
    | deliver events direction => cases direction <;> exact ⟨rfl, rfl, rfl, rfl, rfl, rfl⟩
    | wake h => exact ⟨rfl, rfl, rfl, rfl, rfl, rfl⟩
    | forget h => simp [isWaiting, hgone] at h
    | detach h => exact ⟨rfl, rfl, rfl, rfl, rfl, rfl⟩
  | fail h => exact absurd (hgone.symm.trans h) (by simp)
  | finish h => exact absurd (hgone.symm.trans h) (by simp)
  | refuse h =>
    rw [hgone] at h
    simp at h

omit [Exchange σ] in
theorem WellFormed.closed_of_refused (hw : r.WellFormed)
    {reason : Refusal} (h : (∃ admitted, r.stage = .refusing reason admitted) ∨
      r.stage = .drained ∧ reason = .shutdown) : r.closed = false := by
  refine hw.closed ?_
  rcases h with ⟨admitted, h⟩ | ⟨h, -⟩ <;> rw [h] <;> rfl

theorem Own.stage_of_gone (h : Own hooks config r input r' told) (hw : r.WellFormed)
    {ending : Ending} (hgone : r'.stage = .gone ending) : r.stage = .gone ending := by
  have hopen (hover : r'.stage.isOver = false) : r.stage = .gone ending := by
    rw [hgone] at hover
    cases hover
  cases h with
  | turn hstage =>
    have hturned := turned_turn (hw.program (by rw [hstage]; rfl))
    exact hopen (hturned.stage (P := (·.isOver = false)) rfl rfl fun _ ↦ rfl)
  | depart hstage => exact hopen (moved_depart _ _ (hw.ne_noProgram (.inr hstage))).open'
  | receive hevent => exact hopen (moved_receive hevent).2.2.open'
  | deliver events direction => cases direction <;> exact hgone
  | wake hwake => exact hgone
  | forget hwaiting => cases hgone
  | detach hwaiting => exact hgone

/-- A request leaves in two ways: it has been answered and is finished, or it is refused. -/
theorem Step.leaves (h : Step hooks config r input r' told) (hw : r.WellFormed) {ending : Ending}
    (hgone : r'.stage = .gone ending) :
    r.stage = .gone ending ∨ r.closed = false ∧ r.stage ≠ .running ∧
      ((ending = .ofFinish (Request.finish hooks r).1 ∧
          r' = { (Request.finish hooks r).2.1 with stage := .gone ending } ∧
          told = (Request.finish hooks r).2.2) ∨
        ∃ reason, ending = .refused reason ∧
          r' = { (Request.refuse hooks r reason).1 with stage := .gone ending } ∧
          told = (Request.refuse hooks r reason).2) := by
  cases h with
  | stay => exact .inl hgone
  | keepRank qos => exact .inl hgone
  | rank qos h => exact .inl hgone
  | pass h =>
    change _ = _ at hgone
    subst hgone
    cases hstage : r.stage <;> rw [hstage] at h <;> cases h
  | own h => exact .inl (h.stage_of_gone hw hgone)
  | fail h => cases hgone
  | finish h =>
    cases hgone
    refine .inr ⟨hw.closed (by rw [h]; rfl), by rw [h]; simp, .inl ⟨rfl, rfl, rfl⟩⟩
  | @refuse reason h =>
    cases hgone
    refine .inr ⟨hw.closed_of_refused h, ?_, .inr ⟨reason, rfl, rfl, rfl⟩⟩
    rcases h with ⟨admitted, h⟩ | ⟨h, -⟩ <;> rw [h] <;> simp

end Request

end Turnstile
