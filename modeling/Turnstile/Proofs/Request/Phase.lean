import Turnstile.Proofs.Request.Place

/-!
# The phases of a request

A request that reads its body or writes its response waits for the transport in a phase, and the
events of the phase wait in its inbox. What the events come to is a fold: they are looked at one by
one, up to and including the first that ends the phase (`Request.receiveAll`). How many of them
already stand in the inbox has no part in that, since looking at an event never looks at those
behind it (`Request.receive_withInbox`).

## Open inboxes

The inbox of a direction is open while the request is in that phase, and closed and empty whenever
it is not (`Request.Aligned`).
-/

namespace Turnstile

namespace Stage

/-- The direction in which a request waits for the transport. -/
def phase? : Stage → Option Direction
  | .reading _ _ => some .read
  | .writing _ => some .write
  | _ => none

/-- How a phase ends: a body that was read goes back for a slot, one that is too large is answered,
a response that was written is over, and what failed is answered with an error. -/
def EndsPhase : Direction → Stage → Prop
  | .read, stage => stage = .returning ∨
      (∃ limit, stage = .departed (.respond (.tooLarge limit))) ∨ ∃ e, stage = .failing (.read e)
  | .write, stage => stage = .finishing ∨ ∃ e, stage = .failing (.write e)

theorem EndsPhase.phase? {direction : Direction} {stage : Stage} (h : EndsPhase direction stage) :
    stage.phase? = none := by
  cases direction with
  | read => rcases h with rfl | ⟨limit, rfl⟩ | ⟨e, rfl⟩ <;> rfl
  | write => rcases h with rfl | ⟨e, rfl⟩ <;> rfl

end Stage

namespace Request

variable {σ : Type} {r r' start : Request σ} {hooks : Hooks} {config : Config} {input : Input}
  {inputs : List Input} {told : List Happening} {direction : Direction} {event : IoEvent}
  {events : List IoEvent}

/-! ## The inbox of a phase -/

/-- A request with another inbox for a direction. -/
def withInbox (r : Request σ) (direction : Direction) (box : Inbox) : Request σ :=
  match direction with
  | .read => { r with reads := some box }
  | .write => { r with writes := some box }

@[simp] theorem ordinal_withInbox (r : Request σ) (direction : Direction) (box : Inbox) :
    (r.withInbox direction box).ordinal = r.ordinal := by
  cases direction <;> rfl

@[simp] theorem stage_withInbox (r : Request σ) (direction : Direction) (box : Inbox) :
    (r.withInbox direction box).stage = r.stage := by
  cases direction <;> rfl

@[simp] theorem inbox?_withInbox (r : Request σ) (direction : Direction) (box : Inbox) :
    (r.withInbox direction box).inbox? direction = some box := by
  cases direction <;> rfl

@[simp] theorem withInbox_withInbox (r : Request σ) (direction : Direction) (box box' : Inbox) :
    (r.withInbox direction box).withInbox direction box' = r.withInbox direction box' := by
  cases direction <;> rfl

theorem withInbox_of_inbox? {box : Inbox} (h : r.inbox? direction = some box) :
    r.withInbox direction box = r := by
  cases direction with
  | read =>
    have hreads : r.reads = some box := h
    rw [withInbox, ← hreads]
  | write =>
    have hwrites : r.writes = some box := h
    rw [withInbox, ← hwrites]

theorem deliver_withInbox (box : Inbox) :
    (r.withInbox direction box).deliver events direction =
      r.withInbox direction (box.deliver events) := by
  cases direction <;> rfl

theorem deliver_of_ended (h : ∀ box, r.inbox? direction = some box → box = .ended) :
    r.deliver events direction = r := by
  cases hbox : r.inbox? direction with
  | none =>
    cases direction with
    | read =>
      have hreads : r.reads = none := hbox
      rw [deliver, hreads, Option.map_none, ← hreads]
    | write =>
      have hwrites : r.writes = none := hbox
      rw [deliver, hwrites, Option.map_none, ← hwrites]
  | some box =>
    rw [h box hbox] at hbox
    calc r.deliver events direction
      _ = (r.withInbox direction .ended).deliver events direction := by
        rw [withInbox_of_inbox? hbox]
      _ = r.withInbox direction .ended := deliver_withInbox .ended
      _ = r := withInbox_of_inbox? hbox

theorem nextEvent?_nil (h : r.stage.phase? = some direction) :
    (r.withInbox direction .empty).nextEvent? = none := by
  unfold Stage.phase? at h
  split at h <;> cases h <;> next hstage =>
    cases r
    cases hstage
    rfl

theorem nextEvent?_cons (h : r.stage.phase? = some direction) :
    (r.withInbox direction ⟨event :: events, false⟩).nextEvent? =
      some (event, r.withInbox direction ⟨events, false⟩) := by
  unfold Stage.phase? at h
  split at h <;> cases h <;> next hstage =>
    cases r
    cases hstage
    rfl

theorem nextEvent?_of_phase? (h : r.stage.phase? = none) : r.nextEvent? = none := by
  unfold nextEvent?
  split
  next hstage =>
    rw [hstage] at h
    cases h
  next hstage =>
    rw [hstage] at h
    cases h
  · rfl

variable [Exchange σ]

/-! ## Looking at events -/

/-- Look at events one by one, up to and including the first that ends the phase. -/
def receiveAll : Request σ → List IoEvent → Request σ × List Happening
  | r, [] => (r, [])
  | r, event :: events =>
    if r.isWaiting then
      let (r, told) := r.receive event
      let (r, more) := r.receiveAll events
      (r, told ++ more)
    else (r, [])

omit [Exchange σ] in
theorem isWaiting_eq_isSome (r : Request σ) : r.isWaiting = r.stage.phase?.isSome := by
  unfold isWaiting
  cases r.stage <;> rfl

@[simp] theorem receiveAll_nil (r : Request σ) : r.receiveAll [] = (r, []) := rfl

theorem receiveAll_cons (h : r.stage.phase? = some direction) (event : IoEvent)
    (events : List IoEvent) :
    r.receiveAll (event :: events) = (((r.receive event).1.receiveAll events).1,
      (r.receive event).2 ++ ((r.receive event).1.receiveAll events).2) := by
  rw [receiveAll, isWaiting_eq_isSome, h]
  rfl

theorem receiveAll_of_phase? (h : r.stage.phase? = none) (events : List IoEvent) :
    r.receiveAll events = (r, []) := by
  cases events with
  | nil => rfl
  | cons event events =>
    rw [receiveAll, isWaiting_eq_isSome, h]
    rfl

theorem receiveAll_append (r : Request σ) (events more : List IoEvent) :
    r.receiveAll (events ++ more) = (((r.receiveAll events).1.receiveAll more).1,
      (r.receiveAll events).2 ++ ((r.receiveAll events).1.receiveAll more).2) := by
  induction events generalizing r with
  | nil => rfl
  | cons event events ih =>
    cases hphase : r.stage.phase? with
    | none =>
      rw [receiveAll_of_phase? hphase, receiveAll_of_phase? hphase]
      exact (receiveAll_of_phase? hphase more).symm
    | some direction =>
      rw [List.cons_append, receiveAll_cons hphase, receiveAll_cons hphase, ih]
      simp only [List.append_assoc]

theorem receiveAll_append_of_phase? (h : (r.receiveAll events).1.stage.phase? = none)
    (more : List IoEvent) : r.receiveAll (events ++ more) = r.receiveAll events := by
  rw [receiveAll_append, receiveAll_of_phase? h, List.append_nil]

theorem ordinal_receive (r : Request σ) (event : IoEvent) :
    (r.receive event).1.ordinal = r.ordinal := by
  unfold receive
  split
  · exact (moved_receiveRead r _ _ event).ordinal
  · exact (moved_receiveWrite r _ event).ordinal
  · rfl

theorem ordinal_receiveAll (r : Request σ) (events : List IoEvent) :
    (r.receiveAll events).1.ordinal = r.ordinal := by
  induction events generalizing r with
  | nil => rfl
  | cons event events ih =>
    cases hphase : r.stage.phase? with
    | none => rw [receiveAll_of_phase? hphase]
    | some direction => rw [receiveAll_cons hphase, ih, ordinal_receive]

/-- Looking at an event does not look at those behind it: they stay in the inbox while the phase
goes on, and are given up where it ends. -/
theorem receive_withInbox (h : r.stage.phase? = some direction) (event : IoEvent)
    (events : List IoEvent) :
    let outcome := (r.withInbox direction .empty).receive event
    (outcome.1.stage.phase? = some direction ∧ outcome.1.inbox? direction = some .empty ∧
        (r.withInbox direction ⟨events, false⟩).receive event =
          (outcome.1.withInbox direction ⟨events, false⟩, outcome.2)) ∨
      outcome.1.stage.EndsPhase direction ∧ outcome.1.inbox? direction = some .ended ∧
        (r.withInbox direction ⟨events, false⟩).receive event = outcome := by
  unfold Stage.phase? at h
  split at h <;> cases h
  next reader next hstage =>
    simp only [receive, stage_withInbox, hstage]
    unfold receiveRead
    cases reader.advance event with
    | mk progress reader =>
      cases progress with
      | pending => exact .inl ⟨rfl, rfl, rfl⟩
      | complete body => exact .inr ⟨.inl rfl, rfl, rfl⟩
      | limitExceeded limit => exact .inr ⟨.inr (.inl ⟨limit, rfl⟩), rfl, rfl⟩
      | failed e => exact .inr ⟨.inr (.inr ⟨e, rfl⟩), rfl, rfl⟩
  next writer hstage =>
    simp only [receive, stage_withInbox, hstage]
    unfold receiveWrite
    simp only [withInbox]
    cases writer.advance event r.exchange with
    | mk progress rest =>
      cases progress with
      | pending => exact .inl ⟨rfl, rfl, rfl⟩
      | done => exact .inr ⟨.inl rfl, rfl, rfl⟩
      | failed e => exact .inr ⟨.inr ⟨e, rfl⟩, rfl, rfl⟩

theorem phase_receiveAll (h : r.stage.phase? = some direction)
    (hbox : r.inbox? direction = some .empty) (events : List IoEvent) :
    let outcome := (r.receiveAll events).1
    (outcome.stage.phase? = some direction ∧ outcome.inbox? direction = some .empty) ∨
      outcome.stage.EndsPhase direction ∧ outcome.inbox? direction = some .ended := by
  induction events generalizing r with
  | nil => exact .inl ⟨h, hbox⟩
  | cons event events ih =>
    have hreceive := receive_withInbox h event []
    rw [withInbox_of_inbox? hbox] at hreceive
    rw [receiveAll_cons h]
    rcases hreceive with ⟨hphase, hbox', -⟩ | ⟨hends, hbox', -⟩
    · exact ih hphase hbox'
    · rw [receiveAll_of_phase? hends.phase?]
      exact .inr ⟨hends, hbox'⟩

/-- Where a phase has ended, one of the events ended it: those before it left the request in its
phase, and those behind it were not looked at. -/
theorem exists_last_of_receiveAll (h : r.stage.phase? = some direction)
    (hbox : r.inbox? direction = some .empty) (events : List IoEvent)
    (hover : (r.receiveAll events).1.stage.phase? = none) :
    ∃ before last after, events = before ++ last :: after ∧
      (r.receiveAll before).1.stage.phase? = some direction ∧
      r.receiveAll events = r.receiveAll (before ++ [last]) := by
  induction events generalizing r with
  | nil =>
    rw [receiveAll_nil, h] at hover
    cases hover
  | cons event events ih =>
    have hreceive := receive_withInbox h event []
    rw [withInbox_of_inbox? hbox] at hreceive
    rcases hreceive with ⟨hgoesOn, hbox', -⟩ | ⟨hends, -, -⟩
    · rw [receiveAll_cons h] at hover
      obtain ⟨before, last, after, rfl, hbefore, heq⟩ := ih hgoesOn hbox' hover
      refine ⟨event :: before, last, after, rfl, ?_, ?_⟩
      · rw [receiveAll_cons h]
        exact hbefore
      · rw [List.cons_append, receiveAll_cons h, receiveAll_cons h, heq]
    · refine ⟨[], event, events, rfl, h, ?_⟩
      rw [List.nil_append, receiveAll_cons h, receiveAll_cons h,
        receiveAll_of_phase? hends.phase?, receiveAll_nil]

theorem inbox?_receive (h : r.stage.phase? = some direction) (event : IoEvent) {other : Direction}
    (hother : other ≠ direction) : (r.receive event).1.inbox? other = r.inbox? other := by
  unfold Stage.phase? at h
  split at h <;> cases h
  next reader next hstage =>
    simp only [receive, hstage]
    cases other with
    | read => exact absurd rfl hother
    | write =>
      unfold receiveRead
      split <;> rfl
  next writer hstage =>
    simp only [receive, hstage]
    cases other with
    | read =>
      unfold receiveWrite
      split <;> rfl
    | write => exact absurd rfl hother

/-! ## Inboxes along a run -/

/-- The inbox of a direction is open while the request is in that phase, and closed and empty at
any other time. -/
structure Aligned (r : Request σ) : Prop where
  /-- The inbox of the phase is open. -/
  opened : ∀ direction, r.stage.phase? = some direction →
    ∃ events, r.inbox? direction = some ⟨events, false⟩
  /-- Any other inbox is closed and empty. -/
  ended : ∀ direction box, r.stage.phase? ≠ some direction → r.inbox? direction = some box →
    box = .ended

namespace Aligned

omit [Exchange σ] in
theorem of_none (h : r.stage.phase? = none)
    (hended : ∀ direction box, r.inbox? direction = some box → box = .ended) : r.Aligned where
  opened direction hphase := by
    rw [h] at hphase
    cases hphase
  ended direction box _ := hended direction box

omit [Exchange σ] in
theorem of_phase (direction : Direction) (h : r.stage.phase? = some direction)
    (hbox : r.inbox? direction = some ⟨events, false⟩)
    (hother : ∀ other ≠ direction, ∀ box, r.inbox? other = some box → box = .ended) :
    r.Aligned where
  opened direction' hphase := by
    cases h.symm.trans hphase
    exact ⟨events, hbox⟩
  ended other box hphase := hother other (fun heq ↦ hphase (heq ▸ h)) box

omit [Exchange σ] in
theorem congr (h : r.Aligned) (hphase : r'.stage.phase? = r.stage.phase?)
    (hboxes : ∀ direction, r'.inbox? direction = r.inbox? direction) : r'.Aligned where
  opened direction := by
    rw [hphase, hboxes]
    exact h.opened direction
  ended direction box := by
    rw [hphase, hboxes]
    exact h.ended direction box

omit [Exchange σ] in
theorem ended_of_none (h : r.Aligned) (hphase : r.stage.phase? = none) (direction : Direction)
    (box : Inbox) (hbox : r.inbox? direction = some box) : box = .ended :=
  h.ended direction box (by rw [hphase]; simp) hbox

omit [Exchange σ] in
theorem deliver (h : r.Aligned) (events : List IoEvent) (direction : Direction) :
    (r.deliver events direction).Aligned := by
  have hstage : (r.deliver events direction).stage = r.stage := by cases direction <;> rfl
  have hsame : (r.deliver events direction).inbox? direction =
      (r.inbox? direction).map (·.deliver events) := by cases direction <;> rfl
  have hothers (other : Direction) (hne : other ≠ direction) :
      (r.deliver events direction).inbox? other = r.inbox? other := by
    cases direction <;> cases other <;> first | rfl | exact absurd rfl hne
  constructor
  · intro direction' hphase
    rw [hstage] at hphase
    obtain ⟨old, hold⟩ := h.opened direction' hphase
    by_cases heq : direction' = direction
    · subst heq
      exact ⟨old ++ events, by rw [hsame, hold]; rfl⟩
    · exact ⟨old, by rw [hothers _ heq, hold]⟩
  · intro direction' box hphase hbox
    rw [hstage] at hphase
    by_cases heq : direction' = direction
    · subst heq
      rw [hsame] at hbox
      obtain ⟨old, hold, rfl⟩ := Option.map_eq_some_iff.mp hbox
      rw [h.ended _ old hphase hold]
      rfl
    · rw [hothers _ heq] at hbox
      exact h.ended _ box hphase hbox

theorem turn (h : r.Aligned) (hstage : r.stage = .running) : r.turn.1.Aligned := by
  have hphase : r.turn.1.stage.phase? = r.stage.phase? := by
    rw [hstage]
    cases hp : r.program with
    | none => rw [Request.turn, hp]; rfl
    | some p =>
      exact (turned_turn (by rw [hp]; rfl)).stage (P := (·.phase? = none)) rfl rfl fun _ ↦ rfl
  refine h.congr hphase fun direction ↦ ?_
  cases hp : r.program with
  | none =>
    rw [Request.turn, hp]
    cases direction <;> rfl
  | some p =>
    rw [(turned_turn (by rw [hp]; rfl)).frame]
    cases direction <;> rfl

theorem depart (h : r.Aligned) {exit : Exit} (hstage : r.stage = .departed exit)
    (maxBodyBytes chunkSize : Nat) : (r.depart maxBodyBytes chunkSize exit).1.Aligned := by
  have hended := h.ended_of_none (by rw [hstage]; rfl)
  cases exit with
  | respond response =>
    rw [Request.depart, beginResponse]
    split
    split
    split
    · refine of_none rfl fun direction box hbox ↦ ?_
      cases direction with
      | read => exact hended .read box hbox
      | write => exact (Option.some.inj hbox).symm
    · refine of_phase .write rfl rfl fun other hother box hbox ↦ ?_
      cases other with
      | read => exact hended .read box hbox
      | write => exact absurd rfl hother
  | readBody limit next =>
    rw [Request.depart, beginRead]
    split
    split
    · refine of_none rfl fun direction box hbox ↦ ?_
      cases direction with
      | read => exact (Option.some.inj hbox).symm
      | write => exact hended .write box hbox
    · refine of_phase .read rfl rfl fun other hother box hbox ↦ ?_
      cases other with
      | read => exact absurd rfl hother
      | write => exact hended .write box hbox
  | fail failure =>
    refine of_none rfl fun direction box hbox ↦ hended direction box ?_
    cases direction <;> exact hbox

/-- Looking at an event leaves the inbox open, or the phase is over and the inbox is closed. -/
theorem receive (h : r.Aligned) (hevent : r.nextEvent? = some (event, r')) :
    (r'.receive event).1.Aligned := by
  cases hphase : r.stage.phase? with
  | none =>
    rw [nextEvent?_of_phase? hphase] at hevent
    cases hevent
  | some direction =>
    obtain ⟨events, hbox⟩ := h.opened direction hphase
    rw [← withInbox_of_inbox? hbox] at hevent
    cases events with
    | nil => cases hevent.symm.trans (nextEvent?_nil hphase)
    | cons event' rest =>
      rw [nextEvent?_cons hphase] at hevent
      cases hevent
      have hothers (other : Direction) (hother : other ≠ direction) (box : Inbox)
          (hbox : ((r.withInbox direction ⟨rest, false⟩).receive event).1.inbox? other = some box) :
          box = .ended := by
        rw [inbox?_receive (by rw [stage_withInbox, hphase]) event hother] at hbox
        refine h.ended other box (by rw [hphase]; simpa using hother.symm) ?_
        cases direction <;> cases other <;> first | exact hbox | exact absurd rfl hother
      rcases receive_withInbox hphase event rest with ⟨hgoesOn, -, heq⟩ | ⟨hends, hclosed, heq⟩
      · rw [heq]
        refine of_phase direction ?_ (inbox?_withInbox _ direction ⟨rest, false⟩) ?_
        · rw [stage_withInbox]
          exact hgoesOn
        · rw [heq] at hothers
          exact hothers
      · rw [heq] at hothers ⊢
        refine of_none hends.phase? fun other box hbox ↦ ?_
        by_cases hother : other = direction
        · subst hother
          exact Option.some.inj (hbox.symm.trans hclosed)
        · exact hothers other hother box hbox

end Aligned

theorem aligned_new (ordinal : Nat) (qos : Qos) (exchange : σ) (program : Program) :
    (new ordinal qos exchange program).Aligned :=
  .of_none rfl fun direction _ hbox ↦ by cases direction <;> cases hbox

omit [Exchange σ] in
theorem Passes.phase? {stage stage' : Stage} (h : Passes stage stage') :
    stage.phase? = none ∧ stage'.phase? = none := by
  cases h <;> exact ⟨rfl, rfl⟩

theorem Own.aligned (h : Own hooks config r input r' told) (hr : r.Aligned) : r'.Aligned := by
  cases h with
  | turn hstage => exact hr.turn hstage
  | depart hstage => exact hr.depart hstage _ _
  | receive hevent => exact hr.receive hevent
  | deliver events direction => exact hr.deliver events direction
  | @wake events exchange hwake =>
    have hwoken : { r with exchange }.Aligned := hr.congr rfl fun direction ↦ by
      cases direction <;> rfl
    exact hwoken.deliver events .write
  | forget hwaiting =>
    rw [drop_frame]
    exact .of_none rfl fun direction _ hbox ↦ by cases direction <;> cases hbox
  | detach hwaiting =>
    rw [isWaiting_eq_isSome, Option.isSome_eq_false_iff, Option.isNone_iff_eq_none] at hwaiting
    exact .of_none hwaiting fun direction _ hbox ↦ by cases direction <;> cases hbox

/-- Every move leaves an open inbox for the phase the request is in, and no other. -/
theorem Step.aligned (h : Step hooks config r input r' told) (hr : r.Aligned) : r'.Aligned := by
  cases h with
  | stay => exact hr
  | keepRank qos => exact hr
  | rank qos hqueued => exact hr.congr rfl fun direction ↦ by cases direction <;> rfl
  | pass hpass =>
    obtain ⟨hbefore, hafter⟩ := hpass.phase?
    exact hr.congr (hafter.trans hbefore.symm) fun direction ↦ by cases direction <;> rfl
  | own h => exact h.aligned hr
  | fail hstage =>
    have hsent := sendError_frame r (hooks.errorResponse r.ordinal r.metadata)
    unfold Request.fail
    dsimp only
    rw [hsent]
    exact hr.congr (by rw [hstage]; rfl) fun direction ↦ by cases direction <;> rfl
  | finish hstage =>
    refine hr.congr (by rw [hstage]; rfl) fun direction ↦ ?_
    unfold Request.finish
    split <;> cases direction <;> rfl
  | refuse hstage =>
    have hnone : r.stage.phase? = none := by
      rcases hstage with ⟨admitted, hstage⟩ | ⟨hstage, -⟩ <;> rw [hstage] <;> rfl
    refine hr.congr (by rw [hnone]; rfl) fun direction ↦ ?_
    unfold Request.refuse
    split
    · cases direction <;> rfl
    · dsimp only
      split <;> cases direction <;> rfl

theorem Run.aligned (h : Run hooks config start inputs r told) (hstart : start.Aligned) :
    r.Aligned := by
  induction h with
  | start => exact hstart
  | step _ s ih => exact s.aligned ih

end Request

end Turnstile
