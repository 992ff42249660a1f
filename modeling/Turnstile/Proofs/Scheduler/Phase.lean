import Turnstile.Proofs.Request.Phase
import Turnstile.Proofs.Scheduler.Meaning

/-!
# A phase is a fold over its events

Two things happen to a request that waits for the transport: an event is put into the inbox of its
phase, by whichever thread the transport uses, and the request looks at the oldest event there. They
may alternate in any way (`Scheduler.Turn`). Events may be put in before the request begins to look
at any, from inside the call that started the phase or later, and while another thread has it look
at them; a thread that reports an event to a request that waits puts it in and has the request look
at all there is (`Scheduler.notify`).

## The fold

Whichever way its events come, what a phase comes to is the fold over them: `Scheduler.Progress`
says how far it has come, each turn keeps that, and a request that looks at all there is has folded
all events that were put in, up to the one that ended the phase.
-/

namespace Turnstile

namespace Scheduler

variable {σ : Type} {s : Scheduler σ} {n : Nat} {r r₁ r₂ : Request σ} {direction : Direction}
  {told more : List Happening} {event : IoEvent} {events : List IoEvent}

/-! ## Putting requests back -/

theorem absorb_self (hr : s.requests[n]? = some r) (hordinal : r.ordinal = n) :
    s.absorb (r, []) = s := by
  have hrequests : s.requests.setIfInBounds r.ordinal r = s.requests := by
    apply Array.ext_getElem?
    intro k
    rw [Array.getElem?_setIfInBounds, hordinal]
    split
    next hk =>
      subst hk
      rw [if_pos (lt_size hr), hr]
    · rfl
  change { s with requests := s.requests.setIfInBounds r.ordinal r } = s
  rw [hrequests]

theorem absorb_absorb (hordinal : r₁.ordinal = r₂.ordinal) :
    (s.absorb (r₁, told)).absorb (r₂, more) = s.absorb (r₂, told ++ more) := by
  have hrequests : (s.requests.setIfInBounds r₁.ordinal r₁).setIfInBounds r₂.ordinal r₂ =
      s.requests.setIfInBounds r₂.ordinal r₂ := by
    rw [hordinal, Array.setIfInBounds_setIfInBounds]
  have hjournal : ((s.absorb (r₁, told)).absorb (r₂, more)).journal =
      (s.absorb (r₂, told ++ more)).journal := by
    apply Journal.ext_toList
    rw [absorb_journal, absorb_journal, absorb_journal, hordinal, List.map_append,
      List.append_assoc]
  calc (s.absorb (r₁, told)).absorb (r₂, more)
    _ = { s with
          requests := (s.requests.setIfInBounds r₁.ordinal r₁).setIfInBounds r₂.ordinal r₂
          journal := ((s.absorb (r₁, told)).absorb (r₂, more)).journal } := rfl
    _ = { s with
          requests := s.requests.setIfInBounds r₂.ordinal r₂
          journal := (s.absorb (r₂, told ++ more)).journal } := by rw [hrequests, hjournal]

variable [Exchange σ]

/-! ## Turns of a phase -/

/-- What happens in a phase. -/
inductive Turn where
  /-- An event is put into the inbox. -/
  | put (event : IoEvent)
  /-- The request looks at the oldest event there, if there is one. -/
  | look

/-- The event that is put in, if it is one of these turns. -/
def Turn.event? : Turn → Option IoEvent
  | .put event => some event
  | .look => none

/-- The events that are put in. -/
def puts (turns : List Turn) : List IoEvent := turns.filterMap Turn.event?

@[simp] theorem puts_map_put (events : List IoEvent) : puts (events.map .put) = events := by
  simp [puts, Turn.event?, Function.comp_def]

/-- The request has an event to look at. -/
def hasEvent (s : Scheduler σ) (n : Nat) : Bool := (s.requests[n]? >>= Request.nextEvent?).isSome

/-- A turn is taken. -/
def take (s : Scheduler σ) (n : Nat) (direction : Direction) : Turn → Scheduler σ
  | .put event => s.perform (.deliver n direction [event])
  | .look => if s.hasEvent n then s.perform (.advance n) else s

/-- Turns are taken in order. -/
def takeAll (s : Scheduler σ) (n : Nat) (direction : Direction) (turns : List Turn) :
    Scheduler σ :=
  turns.foldl (fun s turn ↦ s.take n direction turn) s

/-- A request looks at all events in the inbox of its phase. -/
def pump (s : Scheduler σ) (n : Nat) (direction : Direction) : Scheduler σ :=
  s.takeAll n direction
    (.replicate (((s.inbox? n direction).map (·.events.length)).getD 0) .look)

/-- An event is reported to a request that waits: unless the phase is over, it is put in, and the
request looks at all there is. -/
def notify (s : Scheduler σ) (n : Nat) (direction : Direction) (event : IoEvent) : Scheduler σ :=
  match s.inbox? n direction with
  | some ⟨_, false⟩ => (s.take n direction (.put event)).pump n direction
  | _ => s

/-- Events are reported one by one to a request that waits. -/
def notifyAll (s : Scheduler σ) (n : Nat) (direction : Direction) (events : List IoEvent) :
    Scheduler σ :=
  events.foldl (fun s event ↦ s.notify n direction event) s

theorem takeAll_cons (s : Scheduler σ) (turn : Turn) (turns : List Turn) :
    s.takeAll n direction (turn :: turns) = (s.take n direction turn).takeAll n direction turns :=
  rfl

theorem notifyAll_cons (s : Scheduler σ) (event : IoEvent) (events : List IoEvent) :
    s.notifyAll n direction (event :: events) =
      (s.notify n direction event).notifyAll n direction events :=
  rfl

theorem perform_deliver (hr : s.requests[n]? = some r) (events : List IoEvent) :
    s.perform (.deliver n direction events) = s.absorb (r.deliver events direction, []) := by
  rw [perform, deliver, hr]
  rfl

theorem perform_advance_of_nextEvent? (hr : s.requests[n]? = some r)
    (hevent : r.nextEvent? = some (event, r₁)) :
    s.perform (.advance n) = s.absorb (r₁.receive event) := by
  have hphase : ∃ direction, r.stage.phase? = some direction := by
    rw [← Option.isSome_iff_exists, ← Option.ne_none_iff_isSome]
    intro hnone
    rw [Request.nextEvent?_of_phase? hnone] at hevent
    cases hevent
  obtain ⟨direction, hphase⟩ := hphase
  unfold Stage.phase? at hphase
  split at hphase <;> cases hphase <;> next hstage =>
    simp only [perform, advance, hr, advanceRequest, hstage, hevent]

theorem take_look_of_none (hr : s.requests[n]? = some r) (hnone : r.nextEvent? = none) :
    s.take n direction .look = s := by
  rw [take, hasEvent, hr]
  exact if_neg (by simp [hnone])

theorem takeAll_looks_of_none (hr : s.requests[n]? = some r) (hnone : r.nextEvent? = none)
    (count : Nat) : s.takeAll n direction (.replicate count .look) = s := by
  induction count with
  | zero => rfl
  | succ count ih =>
    rw [List.replicate_succ, takeAll_cons, take_look_of_none hr hnone]
    exact ih

theorem take_look_of_some (hr : s.requests[n]? = some r)
    (hevent : r.nextEvent? = some (event, r₁)) :
    s.take n direction .look = s.absorb (r₁.receive event) := by
  rw [take, hasEvent, hr, ← perform_advance_of_nextEvent? hr hevent]
  exact if_pos (by simp [hevent])

/-! ## How far a phase has come -/

/-- How far a phase has come that began with `start` and an empty inbox, after some events were put
in: some of them have been looked at and the others stand in the inbox, or one of them has ended
the phase. -/
inductive Progress (s : Scheduler σ) (start : Request σ) (direction : Direction) :
    List IoEvent → Scheduler σ → Prop where
  /-- The request waits, with the events `rest` in its inbox. -/
  | waits {looked : List IoEvent} (rest : List IoEvent)
    (h : (start.receiveAll looked).1.stage.phase? = some direction) :
    Progress s start direction (looked ++ rest)
      (s.absorb ((start.receiveAll looked).1.withInbox direction ⟨rest, false⟩,
        (start.receiveAll looked).2))
  /-- The phase is over. -/
  | ended {events : List IoEvent} (h : (start.receiveAll events).1.stage.phase? = none) :
    Progress s start direction events (s.absorb (start.receiveAll events))

/-- A phase begins with a request that waits with an empty inbox. -/
structure Begins (s : Scheduler σ) (n : Nat) (direction : Direction) (start : Request σ) :
    Prop where
  /-- The request has arrived. -/
  arrived : n < s.requests.size
  /-- It has its ordinal. -/
  ordinal : start.ordinal = n
  /-- It waits. -/
  phase : start.stage.phase? = some direction
  /-- Its inbox is empty. -/
  empty : start.inbox? direction = some .empty

namespace Begins

variable {start : Request σ}

omit [Exchange σ] in
theorem getElem?_absorb (hs : s.Begins n direction start) {q : Request σ} (hq : q.ordinal = n)
    (told : List Happening) : (s.absorb (q, told)).requests[n]? = some q :=
  Scheduler.getElem?_absorb hq hs.arrived

theorem ordinal_receiveAll (hs : s.Begins n direction start) (events : List IoEvent) :
    (start.receiveAll events).1.ordinal = n := by
  rw [Request.ordinal_receiveAll, hs.ordinal]

theorem empty_receiveAll (hs : s.Begins n direction start)
    (h : (start.receiveAll events).1.stage.phase? = some direction) :
    (start.receiveAll events).1.inbox? direction = some .empty := by
  rcases Request.phase_receiveAll hs.phase hs.empty events with ⟨-, hbox⟩ | ⟨hends, -⟩
  · exact hbox
  · rw [hends.phase?] at h
    cases h

theorem ended_receiveAll (hs : s.Begins n direction start)
    (h : (start.receiveAll events).1.stage.phase? = none) :
    (start.receiveAll events).1.inbox? direction = some .ended := by
  rcases Request.phase_receiveAll hs.phase hs.empty events with ⟨hgoesOn, -⟩ | ⟨-, hbox⟩
  · rw [hgoesOn] at h
    cases h
  · exact hbox

theorem take_put (hs : s.Begins n direction start) {q : Request σ} (hq : q.ordinal = n)
    (rest : List IoEvent) (event : IoEvent) :
    (s.absorb (q.withInbox direction ⟨rest, false⟩, told)).take n direction (.put event) =
      s.absorb (q.withInbox direction ⟨rest ++ [event], false⟩, told) := by
  have hordinal (box : Inbox) : (q.withInbox direction box).ordinal = n := by
    rw [Request.ordinal_withInbox, hq]
  rw [Scheduler.take, perform_deliver (hs.getElem?_absorb (hordinal _) _),
    Request.deliver_withInbox ⟨rest, false⟩, absorb_absorb ((hordinal _).trans (hordinal _).symm),
    List.append_nil]
  rfl

/-- An event that is looked at leaves those behind it in the inbox, or ends the phase. -/
theorem take_look (hs : s.Begins n direction start) {looked : List IoEvent}
    (h : (start.receiveAll looked).1.stage.phase? = some direction) (event : IoEvent)
    (rest : List IoEvent) :
    let before := start.receiveAll looked
    let after := start.receiveAll (looked ++ [event])
    let next := (s.absorb (before.1.withInbox direction ⟨event :: rest, false⟩, before.2)).take n
      direction .look
    after.1.stage.phase? = some direction ∧
        next = s.absorb (after.1.withInbox direction ⟨rest, false⟩, after.2) ∨
      after.1.stage.phase? = none ∧ next = s.absorb after := by
  have hafter : start.receiveAll (looked ++ [event]) =
      (((start.receiveAll looked).1.receive event).1,
        (start.receiveAll looked).2 ++ ((start.receiveAll looked).1.receive event).2) := by
    rw [Request.receiveAll_append, Request.receiveAll_cons h, Request.receiveAll_nil,
      List.append_nil]
  have hordinal := hs.ordinal_receiveAll looked
  have hreceived : ((start.receiveAll looked).1.receive event).1.ordinal = n := by
    rw [Request.ordinal_receive, hordinal]
  have hwaits (box : Inbox) :
      ((start.receiveAll looked).1.withInbox direction box).ordinal = n := by
    rw [Request.ordinal_withInbox, hordinal]
  have hreceive := Request.receive_withInbox h event rest
  rw [Request.withInbox_of_inbox? (hs.empty_receiveAll h)] at hreceive
  dsimp only
  rw [hafter, take_look_of_some (hs.getElem?_absorb (hwaits _) _) (Request.nextEvent?_cons h)]
  rcases hreceive with ⟨hgoesOn, -, heq⟩ | ⟨hends, -, heq⟩
  · left
    rw [heq]
    refine ⟨hgoesOn, absorb_absorb ((hwaits _).trans ?_)⟩
    rw [Request.ordinal_withInbox, hreceived]
  · right
    rw [heq]
    exact ⟨hends.phase?, absorb_absorb ((hwaits _).trans hreceived.symm)⟩

end Begins

namespace Progress

variable {start : Request σ} {s' : Scheduler σ}

theorem ended_append (h : (start.receiveAll events).1.stage.phase? = none) (more : List IoEvent) :
    Progress s start direction (events ++ more) (s.absorb (start.receiveAll events)) := by
  have heq := Request.receiveAll_append_of_phase? h more
  rw [← heq] at h ⊢
  exact .ended h

theorem take (hs : s.Begins n direction start) (h : Progress s start direction events s')
    (turn : Turn) :
    Progress s start direction (events ++ turn.event?.toList) (s'.take n direction turn) := by
  cases h with
  | @waits looked rest hphase =>
    have hordinal := hs.ordinal_receiveAll looked
    cases turn with
    | put event =>
      rw [hs.take_put hordinal, List.append_assoc]
      exact .waits _ hphase
    | look =>
      rw [Turn.event?, Option.toList_none, List.append_nil]
      cases rest with
      | nil =>
        have hwaits :
            ((start.receiveAll looked).1.withInbox direction ⟨[], false⟩).ordinal = n := by
          rw [Request.ordinal_withInbox, hordinal]
        have hfound := hs.getElem?_absorb hwaits (start.receiveAll looked).2
        rw [take_look_of_none hfound (Request.nextEvent?_nil hphase)]
        exact .waits [] hphase
      | cons event rest =>
        rw [List.append_cons]
        rcases hs.take_look hphase event rest with ⟨hgoesOn, heq⟩ | ⟨hends, heq⟩ <;> rw [heq]
        · exact .waits rest hgoesOn
        · exact ended_append hends rest
  | ended hphase =>
    have hfound := hs.getElem?_absorb (hs.ordinal_receiveAll events) (start.receiveAll events).2
    cases turn with
    | put event =>
      have hclosed := hs.ended_receiveAll hphase
      rw [Scheduler.take, perform_deliver hfound, Request.deliver_of_ended fun box hbox ↦
          Option.some.inj (hbox.symm.trans hclosed),
        absorb_self hfound (hs.ordinal_receiveAll events)]
      exact ended_append hphase _
    | look =>
      rw [take_look_of_none hfound (Request.nextEvent?_of_phase? hphase)]
      exact ended_append hphase _

theorem takeAll (hs : s.Begins n direction start) (h : Progress s start direction events s')
    (turns : List Turn) :
    Progress s start direction (events ++ puts turns) (s'.takeAll n direction turns) := by
  induction turns generalizing events s' with
  | nil =>
    rw [puts, List.filterMap_nil, List.append_nil]
    exact h
  | cons turn turns ih =>
    have hputs : events ++ puts (turn :: turns) =
        events ++ turn.event?.toList ++ puts turns := by
      cases turn <;> simp [puts, Turn.event?, List.filterMap_cons]
    rw [hputs]
    exact ih (h.take hs turn)

/-- A request that looks as often as there are events in its inbox has looked at all there are, or
the phase is over. -/
theorem looks (hs : s.Begins n direction start) {looked rest : List IoEvent}
    (h : (start.receiveAll looked).1.stage.phase? = some direction) :
    (s.absorb ((start.receiveAll looked).1.withInbox direction ⟨rest, false⟩,
        (start.receiveAll looked).2)).takeAll n direction (.replicate rest.length .look) =
      s.absorb (start.receiveAll (looked ++ rest)) := by
  induction rest generalizing looked with
  | nil =>
    rw [List.append_nil]
    exact congrArg (fun q ↦ s.absorb (q, (start.receiveAll looked).2))
      (Request.withInbox_of_inbox? (hs.empty_receiveAll h))
  | cons event rest ih =>
    rw [List.length_cons, List.replicate_succ, takeAll_cons, List.append_cons]
    rcases hs.take_look h event rest with ⟨hgoesOn, heq⟩ | ⟨hends, heq⟩ <;> rw [heq]
    · exact ih hgoesOn
    · rw [Request.receiveAll_append_of_phase? hends]
      exact takeAll_looks_of_none (hs.getElem?_absorb (hs.ordinal_receiveAll _) _)
        (Request.nextEvent?_of_phase? hends) _

theorem pump (hs : s.Begins n direction start) (h : Progress s start direction events s') :
    s'.pump n direction = s.absorb (start.receiveAll events) := by
  cases h with
  | @waits looked rest hphase =>
    have hwaits : ((start.receiveAll looked).1.withInbox direction ⟨rest, false⟩).ordinal = n := by
      rw [Request.ordinal_withInbox, hs.ordinal_receiveAll]
    have hfound := hs.getElem?_absorb hwaits (start.receiveAll looked).2
    rw [← looks hs hphase, Scheduler.pump, inbox?, hfound, Option.bind_eq_bind, Option.bind_some,
      Request.inbox?_withInbox]
    rfl
  | ended hphase =>
    exact takeAll_looks_of_none (hs.getElem?_absorb (hs.ordinal_receiveAll _) _)
      (Request.nextEvent?_of_phase? hphase) _

theorem folded (hs : s.Begins n direction start) (events : List IoEvent) :
    Progress s start direction events (s.absorb (start.receiveAll events)) := by
  rcases Request.phase_receiveAll hs.phase hs.empty events with ⟨hgoesOn, hbox⟩ | ⟨hends, -⟩
  · have hwaits := Progress.waits (s := s) [] hgoesOn
    rw [List.append_nil] at hwaits
    exact (congrArg (fun q ↦ s.absorb (q, (start.receiveAll events).2))
      (Request.withInbox_of_inbox? hbox)) ▸ hwaits
  · exact .ended hends.phase?

end Progress

/-! ## Reporting -/

theorem notify_of_ended (hr : s.requests[n]? = some r)
    (hbox : ∀ box, r.inbox? direction = some box → box = .ended) (event : IoEvent) :
    s.notify n direction event = s := by
  have hinbox : ∀ box, s.inbox? n direction = some box → box = .ended := by
    rw [inbox?, hr]
    exact hbox
  unfold notify
  split
  next events heq => cases hinbox _ heq
  · rfl

theorem notifyAll_of_ended (hr : s.requests[n]? = some r)
    (hbox : ∀ box, r.inbox? direction = some box → box = .ended) (events : List IoEvent) :
    s.notifyAll n direction events = s := by
  induction events with
  | nil => rfl
  | cons event events ih =>
    rw [notifyAll_cons, notify_of_ended hr hbox]
    exact ih

variable {start : Request σ}

theorem Begins.notify (hs : s.Begins n direction start) (events : List IoEvent) (event : IoEvent) :
    (s.absorb (start.receiveAll events)).notify n direction event =
      s.absorb (start.receiveAll (events ++ [event])) := by
  have hfound := hs.getElem?_absorb (hs.ordinal_receiveAll events) (start.receiveAll events).2
  rcases Request.phase_receiveAll hs.phase hs.empty events with ⟨hgoesOn, hbox⟩ | ⟨hends, hbox⟩
  · have hinbox : (s.absorb (start.receiveAll events)).inbox? n direction = some ⟨[], false⟩ := by
      rw [inbox?, hfound]
      exact hbox
    rw [Scheduler.notify, hinbox]
    exact ((Progress.folded hs events).take hs (.put event)).pump hs
  · rw [Request.receiveAll_append_of_phase? hends.phase?]
    exact notify_of_ended hfound (fun box heq ↦ Option.some.inj (heq.symm.trans hbox)) event

theorem Begins.notifyAll (hs : s.Begins n direction start) (events later : List IoEvent) :
    (s.absorb (start.receiveAll events)).notifyAll n direction later =
      s.absorb (start.receiveAll (events ++ later)) := by
  induction later generalizing events with
  | nil =>
    rw [List.append_nil]
    rfl
  | cons event later ih =>
    have hsplit : events ++ event :: later = events ++ [event] ++ later := by simp
    rw [notifyAll_cons, hs.notify, hsplit]
    exact ih _

/-! ## The whole phase -/

theorem Reachable.aligned (h : s.Reachable) (hr : s.requests[n]? = some r) : r.Aligned := by
  obtain ⟨qos, exchange, program, inputs, hrun⟩ := h.run hr
  exact hrun.aligned (Request.aligned_new n qos exchange program)

/-- A request that waits, at whatever point of whatever run, begins with an empty inbox and the
events that stand there. -/
theorem Reachable.begins (h : s.Reachable) (hr : s.requests[n]? = some r)
    (hphase : r.stage.phase? = some direction) :
    s.Begins n direction (r.withInbox direction .empty) ∧
      ∃ pending, r.inbox? direction = some ⟨pending, false⟩ ∧
        Progress s (r.withInbox direction .empty) direction pending s := by
  have hordinal := h.sound.numbered.ordinal hr
  have hwaits : (r.withInbox direction .empty).stage.phase? = some direction := by
    rw [Request.stage_withInbox, hphase]
  obtain ⟨pending, hbox⟩ := (h.aligned hr).opened direction hphase
  refine ⟨⟨lt_size hr, by rw [Request.ordinal_withInbox, hordinal], hwaits,
    Request.inbox?_withInbox ..⟩, pending, hbox, ?_⟩
  have hbegun : Progress s (r.withInbox direction .empty) direction ([] ++ pending)
      (s.absorb ((r.withInbox direction .empty).withInbox direction ⟨pending, false⟩, [])) :=
    .waits pending hwaits
  rw [Request.withInbox_withInbox, Request.withInbox_of_inbox? hbox, absorb_self hr hordinal]
    at hbegun
  exact hbegun

theorem Reachable.take (h : s.Reachable) (turn : Turn) : (s.take n direction turn).Reachable := by
  cases turn with
  | put event => exact h.move (.deliver n direction [event])
  | look =>
    rw [Scheduler.take]
    split
    · exact h.move (.advance n)
    · exact h

theorem Reachable.takeAll (h : s.Reachable) (turns : List Turn) :
    (s.takeAll n direction turns).Reachable := by
  induction turns generalizing s with
  | nil => exact h
  | cons turn turns ih => exact ih (h.take turn)

/-- A phase is a fold over its events. Of a request that waits in a phase, at whatever point of
whatever run, its inbox is open. Events may be put in and looked at in turns of any order; once the
request has looked at all there is, it has looked at them one by one in the order they were put in.
So it does not matter how many are put in before it begins to look, and which are reported one by
one after that. In the end it still waits and the inbox is empty, or one of the events has ended the
phase in one of its ways, those behind it were not looked at, the inbox is closed and empty, and
whatever is reported to it is ignored from then on, whatever moves are made, as long as the request
does not begin such a phase anew. -/
theorem notifyAll_pump (h : s.Reachable) (hr : s.requests[n]? = some r)
    (hphase : r.stage.phase? = some direction) :
    ∃ pending, r.inbox? direction = some ⟨pending, false⟩ ∧
      (∀ turns, (s.takeAll n direction turns).pump n direction =
        s.absorb ((r.withInbox direction .empty).receiveAll (pending ++ puts turns))) ∧
      ∀ before after, ∃ r' told,
        (r.withInbox direction .empty).receiveAll (pending ++ before ++ after) = (r', told) ∧
        ((s.takeAll n direction (before.map .put)).pump n direction).notifyAll n direction after =
          s.absorb (r', told) ∧
        (r'.stage.phase? = some direction ∧ r'.inbox? direction = some ⟨[], false⟩ ∨
          r'.stage.EndsPhase direction ∧ r'.inbox? direction = some ⟨[], true⟩ ∧
            (∃ looked last rest, pending ++ before ++ after = looked ++ last :: rest ∧
              ((r.withInbox direction .empty).receiveAll looked).1.stage.phase? = some direction ∧
              (r.withInbox direction .empty).receiveAll (looked ++ [last]) = (r', told)) ∧
            ∀ (moves : List (Move σ)) (r'' : Request σ),
              ((s.absorb (r', told)).performAll moves).requests[n]? = some r'' →
              r''.stage.phase? ≠ some direction → ∀ later,
                ((s.absorb (r', told)).performAll moves).notifyAll n direction later =
                  (s.absorb (r', told)).performAll moves) := by
  obtain ⟨hbegins, pending, hbox, hbegun⟩ := h.begins hr hphase
  have hturns (turns : List Turn) : (s.takeAll n direction turns).pump n direction =
      s.absorb ((r.withInbox direction .empty).receiveAll (pending ++ puts turns)) :=
    (hbegun.takeAll hbegins turns).pump hbegins
  refine ⟨pending, hbox, hturns, fun before after ↦ ⟨_, _, rfl, ?_, ?_⟩⟩
  · rw [hturns, puts_map_put]
    exact hbegins.notifyAll _ after
  have hreachable : (s.absorb ((r.withInbox direction .empty).receiveAll
      (pending ++ before ++ after))).Reachable := by
    rw [List.append_assoc, ← puts_map_put (before ++ after), ← hturns]
    exact (h.takeAll _).takeAll _
  rcases Request.phase_receiveAll hbegins.phase hbegins.empty (pending ++ before ++ after) with
    hgoesOn | ⟨hends, hended⟩
  · exact .inl hgoesOn
  · obtain ⟨looked, last, rest, hsplit, hlooked, hlast⟩ :=
      Request.exists_last_of_receiveAll hbegins.phase hbegins.empty _ hends.phase?
    refine .inr ⟨hends, hended, ⟨looked, last, rest, hsplit, hlooked, hlast.symm⟩, ?_⟩
    intro moves r'' hr'' hout later
    exact notifyAll_of_ended hr''
      (fun box ↦ ((hreachable.performAll moves).aligned hr'').ended direction box hout) later

/-- A body of which one piece is reported inside the call that begins to read it. -/
def onePiece : Scripted := { Scripted.new default with bodyEvents := [.data [1]] }

/-- With one worker, a request whose body is about to be looked at, while the scheduler is
stopped. -/
def beforeBody : Scheduler Scripted :=
  ((Scheduler.new (.sized 1) (.plain .normal)).arrive onePiece readsBody).performAll
    ([.advance 0, .stop] ++ List.replicate 5 (.advance 0))

/-- A second piece that is put in before the request looks at its events, the end of the body that
is reported then, and a piece behind it. The request goes back for a slot; the piece behind the end,
and one that is reported when the request has moved on, are ignored. -/
theorem notifyAll_pump_onePiece :
    beforeBody.Reachable ∧ ∃ r, beforeBody.requests[0]? = some r ∧ r.stage.phase? = some .read ∧
      ∃ pending r' told,
        (r.withInbox .read .empty).receiveAll
          (pending ++ [.data [2]] ++ [.allRead, .data [3]]) = (r', told) ∧
        ((beforeBody.takeAll 0 .read [.put (.data [2])]).pump 0 .read).notifyAll 0 .read
          [.allRead, .data [3]] = beforeBody.absorb (r', told) ∧
        r'.stage.EndsPhase .read ∧
        ((beforeBody.absorb (r', told)).performAll [.advance 0]).notifyAll 0 .read [.data [4]] =
          (beforeBody.absorb (r', told)).performAll [.advance 0] := by
  have hstart : start? (.sized 1) (.plain .normal) =
    .ok (.new (.sized 1) (.plain .normal) : Scheduler Scripted) := rfl
  have hreachable : beforeBody.Reachable :=
    ((reachable_of_start? hstart).move (.arrive onePiece readsBody)).performAll _
  have hphase : beforeBody.requests[0]?.map (fun r ↦ r.stage.phase?) = some (some .read) := by cbv
  obtain ⟨r, hr, hphase⟩ := Option.map_eq_some_iff.mp hphase
  obtain ⟨pending, -, -, hfold⟩ := notifyAll_pump hreachable hr hphase
  obtain ⟨r', told, heq, hstate, hends⟩ := hfold [.data [2]] [.allRead, .data [3]]
  have hordinal : r'.ordinal = 0 := by
    have hsame := Request.ordinal_receiveAll (r.withInbox .read .empty)
      (pending ++ [.data [2]] ++ [.allRead, .data [3]])
    rwa [heq, Request.ordinal_withInbox, hreachable.sound.numbered.ordinal hr] at hsame
  have hover : ((beforeBody.takeAll 0 .read [.put (.data [2])]).pump 0 .read |>.notifyAll 0 .read
      [.allRead, .data [3]]).requests[0]?.map (fun r ↦ r.stage.phase?) = some none := by cbv
  have hlater : (((beforeBody.takeAll 0 .read [.put (.data [2])]).pump 0 .read |>.notifyAll 0 .read
      [.allRead, .data [3]]).performAll [.advance 0]).requests[0]?.map
        (fun r ↦ r.stage.phase?) = some none := by cbv
  rw [List.map_singleton] at hstate
  rw [hstate, getElem?_absorb hordinal (lt_size hr), Option.map_some] at hover
  rw [hstate] at hlater
  obtain ⟨r'', hr'', hphase''⟩ := Option.map_eq_some_iff.mp hlater
  rcases hends with ⟨hwaits, -⟩ | ⟨hends, -, -, hignored⟩
  · cases hwaits.symm.trans (Option.some.inj hover)
  · exact ⟨hreachable, r, hr, hphase, pending, r', told, heq, hstate, hends,
      hignored _ r'' hr'' (by rw [hphase'']; simp) _⟩

end Scheduler

end Turnstile
