import Turnstile.Conduit
import Turnstile.Exchange.Scripted

/-!
# Requests are handed over safely

Whatever the threads at a conduit do and however their steps interleave, the request is in one
place at any time: one thread has it in hand, or it is parked and nobody has, or one thread is about
to close the inbox because the phase is over, or all that is past but for one thread at most, which
sees to what comes of the request. `Crowd.Custody` is this case distinction, and every step of every
thread keeps it.

## No event is stranded

The delicate moment is between the last look at the inbox and the putting back of the request, since
an event put in meanwhile finds nothing to take. It is not stranded: as long as a parked request has
events, some thread is about to take it or to look whether there are any (`Crowd.Waiting.awake`). So
when no thread is at the conduit any more, all events have been applied or the phase is over.
-/

namespace Turnstile

namespace Conduit

variable {P : Type} {apply : P → IoEvent → Option P} {start : P}

namespace Task

/-- The request that a thread has in hand, and the event that it applies to it. -/
def hand? : Task P → Option (P × List IoEvent)
  | .parking p | .holding p | .yielding p => some (p, [])
  | .applying p event => some (p, [event])
  | _ => none

/-- The thread has nothing to do with the request. -/
def isIdle : Task P → Bool
  | .away | .taking | .checking => true
  | _ => false

theorem holds_of_isIdle {task : Task P} (h : task.isIdle = true) : task.holds = false := by
  cases task <;> first | rfl | cases h

theorem isIdle_of_holds {task : Task P} (h : task.holds = true) : task.isIdle = false := by
  refine Bool.eq_false_iff.mpr fun hidle ↦ ?_
  rw [holds_of_isIdle hidle] at h
  cases h

theorem ne_exiting_of_isIdle {task : Task P} (h : task.isIdle = true) : task ≠ .exiting := by
  rintro rfl
  cases h

theorem isIdle_of_hand? {task : Task P} {hand : P × List IoEvent} (h : task.hand? = some hand) :
    task.isIdle = false := by
  cases task <;> first | rfl | cases h

theorem flight_of_hand? {task : Task P} {p : P} {flight : List IoEvent}
    (h : task.hand? = some (p, flight)) :
    flight = [] ∨ ∃ event, task = .applying p event ∧ flight = [event] := by
  cases task with
  | applying p event =>
    cases h
    exact .inr ⟨event, rfl, rfl⟩
  | parking p | holding p | yielding p =>
    cases h
    exact .inl rfl
  | _ => cases h

end Task

namespace Crowd

variable {c : Crowd P} {i j : Nat} {p : P} {flight : List IoEvent} {task : Task P}

@[simp] theorem task_turn_self : (c.turn i task).task i = task := if_pos rfl

theorem task_turn_ne (h : j ≠ i) : (c.turn i task).task j = c.task j := if_neg h

theorem forall_turn (q : Task P → Prop) (hi : q task) (hj : j ≠ i → q (c.task j)) :
    q ((c.turn i task).task j) := by
  by_cases hji : j = i
  · rw [hji, task_turn_self]
    exact hi
  · rw [task_turn_ne hji]
    exact hj hji

theorem exiting_of_turn (htask : task ≠ .exiting) (hj : (c.turn i task).task j = .exiting) :
    c.task j = .exiting :=
  forall_turn (fun t ↦ t = .exiting → c.task j = .exiting) (fun h ↦ absurd h htask) (fun _ ↦ id) hj

theorem foldlM_concat {events : List IoEvent} (h : events.foldlM apply start = some p)
    (event : IoEvent) : (events ++ [event]).foldlM apply start = apply p event := by
  simp [List.foldlM_append, h]

/-! ## Where the request is -/

/-- The thread `i` has the request `p` in hand and applies the events `flight` to it, one or none.
It is what the events applied so far made of it, and those not applied yet are in the inbox. -/
structure Held (apply : P → IoEvent → Option P) (start : P) (c : Crowd P) (i : Nat) (p : P)
    (flight : List IoEvent) : Prop where
  hand : (c.task i).hand? = some (p, flight)
  others : ∀ j, j ≠ i → (c.task j).isIdle = true
  parked : c.conduit.parked = none
  opened : c.conduit.inbox.closed = false
  accepted : c.accepted = c.applied ++ (flight ++ c.conduit.inbox.events)
  applied : c.applied.foldlM apply start = some p
  begun : c.begun = (c.task i).isInside

/-- The request `p` is parked. If there are events for it, some thread is about to take it or to
look for events. -/
structure Waiting (apply : P → IoEvent → Option P) (start : P) (c : Crowd P) (p : P) : Prop where
  idle : ∀ j, (c.task j).isIdle = true
  parked : c.conduit.parked = some p
  opened : c.conduit.inbox.closed = false
  accepted : c.accepted = c.applied ++ c.conduit.inbox.events
  applied : c.applied.foldlM apply start = some p
  begun : c.begun = true
  awake : c.conduit.inbox.events ≠ [] → ∃ j, c.task j = .taking ∨ c.task j = .checking

/-- The thread `i` has applied the event that ends the phase. -/
structure Ending (apply : P → IoEvent → Option P) (start : P) (c : Crowd P) (i : Nat) : Prop where
  task : c.task i = .closing
  others : ∀ j, j ≠ i → (c.task j).isIdle = true
  parked : c.conduit.parked = none
  opened : c.conduit.inbox.closed = false
  accepted : c.accepted = c.applied ++ c.conduit.inbox.events
  applied : c.applied.foldlM apply start = none

/-- The inbox has been closed, and the request is not to be had here any more. -/
structure Gone (apply : P → IoEvent → Option P) (start : P) (c : Crowd P) : Prop where
  idle : ∀ j, (c.task j).isIdle = true ∨ c.task j = .exiting
  one : ∀ j k, c.task j = .exiting → c.task k = .exiting → j = k
  parked : c.conduit.parked = none
  ended : c.conduit.inbox = .ended
  accepted : c.applied <+: c.accepted
  applied : c.begun = true → c.applied.foldlM apply start = none

/-- The request is in one place. -/
inductive Custody (apply : P → IoEvent → Option P) (start : P) (c : Crowd P) : Prop where
  /-- A thread has it in hand. -/
  | held {i : Nat} {p : P} {flight : List IoEvent} (h : c.Held apply start i p flight)
  /-- It is parked. -/
  | waiting {p : P} (h : c.Waiting apply start p)
  /-- Its phase is over. -/
  | ending {i : Nat} (h : c.Ending apply start i)
  /-- It has left. -/
  | gone (h : c.Gone apply start)

/-- A thread that has to do with the request has it in hand, or ends its phase, or sees to what
comes of it. -/
theorem Custody.of_busy (h : c.Custody apply start) (hbusy : (c.task i).isIdle = false) :
    (∃ p flight, c.Held apply start i p flight) ∨ c.Ending apply start i ∨
      c.Gone apply start ∧ c.task i = .exiting := by
  have hne {k : Nat} (hothers : ∀ j, j ≠ k → (c.task j).isIdle = true) : i = k := by
    by_cases hik : i = k
    · exact hik
    · rw [hothers i hik] at hbusy
      cases hbusy
  cases h with
  | held h =>
    obtain rfl := hne h.others
    exact .inl ⟨_, _, h⟩
  | waiting h =>
    rw [h.idle i] at hbusy
    cases hbusy
  | ending h =>
    obtain rfl := hne h.others
    exact .inr (.inl h)
  | gone h =>
    refine .inr (.inr ⟨h, (h.idle i).resolve_left ?_⟩)
    rw [hbusy]
    exact Bool.false_ne_true

theorem Custody.held_of_hand? (h : c.Custody apply start)
    (hand : (c.task i).hand? = some (p, flight)) : c.Held apply start i p flight := by
  rcases h.of_busy (Task.isIdle_of_hand? hand) with ⟨p', flight', h⟩ | h | ⟨-, h⟩
  · cases hand.symm.trans h.hand
    exact h
  · rw [h.task] at hand
    cases hand
  · rw [h] at hand
    cases hand

theorem Custody.ending_of_closing (h : c.Custody apply start) (htask : c.task i = .closing) :
    c.Ending apply start i := by
  rcases h.of_busy (i := i) (by rw [htask]; rfl) with ⟨p', flight', h⟩ | h | ⟨-, h⟩
  · have hand := h.hand
    rw [htask] at hand
    cases hand
  · exact h
  · cases htask.symm.trans h

theorem Custody.gone_of_exiting (h : c.Custody apply start) (htask : c.task i = .exiting) :
    c.Gone apply start := by
  rcases h.of_busy (i := i) (by rw [htask]; rfl) with ⟨p', flight', h⟩ | h | ⟨h, -⟩
  · have hand := h.hand
    rw [htask] at hand
    cases hand
  · cases htask.symm.trans h.task
  · exact h

theorem Custody.waiting_of_parked (h : c.Custody apply start) (hp : c.conduit.parked = some p) :
    c.Waiting apply start p := by
  cases h with
  | waiting h =>
    cases hp.symm.trans h.parked
    exact h
  | held h | ending h | gone h => cases hp.symm.trans h.parked

/-! ## Steps of threads that do not have it -/

/-- A thread that has nothing to do with the request turns to something else that has not, and goes
away only if nothing is parked or there are no events. -/
theorem Custody.turn (h : c.Custody apply start) (hi : (c.task i).isIdle = true)
    (htask : task.isIdle = true)
    (hawake : c.conduit.parked ≠ none → c.conduit.inbox.events ≠ [] →
      task = .taking ∨ task = .checking) : (c.turn i task).Custody apply start := by
  have hexiting : task ≠ .exiting := Task.ne_exiting_of_isIdle htask
  cases h with
  | @held k p flight h =>
    have hne : k ≠ i := by
      rintro rfl
      rw [Task.isIdle_of_hand? h.hand] at hi
      cases hi
    exact .held { h with
      hand := by rw [task_turn_ne hne]; exact h.hand
      others := fun j hj ↦ forall_turn (·.isIdle = true) htask fun _ ↦ h.others j hj
      begun := by rw [task_turn_ne hne]; exact h.begun }
  | waiting h =>
    refine .waiting { h with
      idle := fun j ↦ forall_turn (·.isIdle = true) htask fun _ ↦ h.idle j
      awake := fun hevents ↦ ?_ }
    have hparked : c.conduit.parked ≠ none := by simp [h.parked]
    exact ⟨i, by rw [task_turn_self]; exact hawake hparked hevents⟩
  | @ending k h =>
    have hne : k ≠ i := by
      rintro rfl
      rw [h.task] at hi
      cases hi
    exact .ending { h with
      task := by rw [task_turn_ne hne]; exact h.task
      others := fun j hj ↦ forall_turn (·.isIdle = true) htask fun _ ↦ h.others j hj }
  | gone h =>
    exact .gone { h with
      idle := fun j ↦ forall_turn (fun t ↦ t.isIdle = true ∨ t = .exiting) (.inl htask) fun _ ↦
        h.idle j
      one := fun j k hj hk ↦
        h.one j k (exiting_of_turn hexiting hj) (exiting_of_turn hexiting hk) }

theorem Custody.push (h : c.Custody apply start) (hopened : c.conduit.inbox.closed = false)
    (htask : c.task i = .taking) (event : IoEvent) : (c.push event).Custody apply start := by
  have hbox : c.conduit.inbox.push event =
      { c.conduit.inbox with events := c.conduit.inbox.events ++ [event] } :=
    if_neg (Bool.eq_false_iff.mp hopened)
  cases h with
  | held h =>
    exact .held { h with
      opened := by rw [Crowd.push, hbox]; exact hopened
      accepted := by rw [Crowd.push, hbox, h.accepted]; simp }
  | waiting h =>
    exact .waiting { h with
      opened := by rw [Crowd.push, hbox]; exact hopened
      accepted := by rw [Crowd.push, hbox, h.accepted]; simp
      awake := fun _ ↦ ⟨i, .inl htask⟩ }
  | ending h =>
    exact .ending { h with
      opened := by rw [Crowd.push, hbox]; exact hopened
      accepted := by rw [Crowd.push, hbox, h.accepted]; simp }
  | gone h =>
    rw [h.ended] at hopened
    cases hopened

/-! ## Steps of the thread that has it -/

theorem Held.park (h : c.Held apply start i p []) (htask : task = .taking ∨ task = .checking) :
    ((c.park p).turn i task).Waiting apply start p where
  idle j := forall_turn (·.isIdle = true) (by rcases htask with rfl | rfl <;> rfl) (h.others j)
  parked := rfl
  opened := h.opened
  accepted := h.accepted
  applied := h.applied
  begun := rfl
  awake _ := ⟨i, by rw [task_turn_self]; exact htask⟩

theorem Held.abandon (h : c.Held apply start i p flight) (htask : c.task i = .parking p) :
    (c.close.turn i .away).Gone apply start where
  idle j := .inl (forall_turn (·.isIdle = true) rfl (h.others j))
  one j _ hj := by
    have hidle : ((c.close.turn i .away).task j).isIdle = true :=
      forall_turn (·.isIdle = true) rfl (h.others j)
    exact absurd hj (Task.ne_exiting_of_isIdle hidle)
  parked := h.parked
  ended := rfl
  accepted := ⟨_, h.accepted.symm⟩
  applied hbegun := by
    have hfalse := h.begun
    rw [htask] at hfalse
    cases hbegun.symm.trans hfalse

theorem Waiting.take (h : c.Waiting apply start p) :
    (c.unpark.turn i (.holding p)).Held apply start i p [] where
  hand := by rw [task_turn_self]; rfl
  others j hj := by rw [task_turn_ne hj]; exact h.idle j
  parked := rfl
  opened := h.opened
  accepted := h.accepted
  applied := h.applied
  begun := by rw [task_turn_self]; exact h.begun

theorem Held.turn {p' : P} {flight' : List IoEvent} {c' : Crowd P}
    (h : c.Held apply start i p flight) (hinside : (c.task i).isInside = true)
    (hand : task.hand? = some (p', flight')) (hinside' : task.isInside = true)
    (htasks : c'.task = c.task) (hparked : c'.conduit.parked = c.conduit.parked)
    (hopened : c'.conduit.inbox.closed = c.conduit.inbox.closed) (hbegun : c'.begun = c.begun)
    (accepted : c'.accepted = c'.applied ++ (flight' ++ c'.conduit.inbox.events))
    (applied : c'.applied.foldlM apply start = some p') :
    (c'.turn i task).Held apply start i p' flight' where
  hand := by rw [task_turn_self]; exact hand
  others j hj := by rw [task_turn_ne hj, htasks]; exact h.others j hj
  parked := hparked.trans h.parked
  opened := hopened.trans h.opened
  accepted := accepted
  applied := applied
  begun := by
    rw [task_turn_self, hinside', ← hinside]
    exact hbegun.trans h.begun

theorem Held.finish {event : IoEvent} (h : c.Held apply start i p [event])
    (hended : apply p event = none) : ((c.apply event).turn i .closing).Ending apply start i where
  task := task_turn_self
  others j hj := by rw [task_turn_ne hj]; exact h.others j hj
  parked := h.parked
  opened := h.opened
  accepted := h.accepted.trans (List.append_assoc _ _ _).symm
  applied := (foldlM_concat h.applied event).trans hended

theorem Ending.close (h : c.Ending apply start i) (htask : task.isIdle = true ∨ task = .exiting) :
    (c.close.turn i task).Gone apply start where
  idle j := forall_turn (fun t ↦ t.isIdle = true ∨ t = .exiting) htask fun hj ↦ .inl (h.others j hj)
  one j k hj hk := by
    -- the others are idle, so it can only be the thread that has closed the inbox
    have hself {l : Nat} (hl : (c.close.turn i task).task l = .exiting) : l = i := by
      by_cases hli : l = i
      · exact hli
      · rw [task_turn_ne hli] at hl
        exact absurd hl (Task.ne_exiting_of_isIdle (h.others l hli))
    rw [hself hj, hself hk]
  parked := h.parked
  ended := rfl
  accepted := ⟨_, h.accepted.symm⟩
  applied _ := h.applied

theorem Gone.exit (h : c.Gone apply start) : (c.close.turn i .away).Gone apply start where
  idle j := forall_turn (fun t ↦ t.isIdle = true ∨ t = .exiting) (.inl rfl) fun _ ↦ h.idle j
  one j k hj hk := by
    have hstill {l : Nat} (hl : (c.close.turn i .away).task l = .exiting) : c.task l = .exiting :=
      exiting_of_turn (Task.ne_exiting_of_isIdle rfl) hl
    exact h.one j k (hstill hj) (hstill hk)
  parked := h.parked
  ended := rfl
  accepted := h.accepted
  applied := h.applied

theorem held_new (owner : Nat) (start : P) : (new owner start).Held apply start owner start [] where
  hand := by simp [new, Task.hand?]
  others j hj := by simp [new, hj, Task.isIdle]
  parked := rfl
  opened := rfl
  accepted := rfl
  applied := rfl
  begun := by simp [new, Task.isInside]

end Crowd

open Crowd

variable {c c' : Crowd P}

/-- Every step of every thread keeps the request in one place. -/
theorem Step.custody (s : Step apply c c') (h : c.Custody apply start) :
    c'.Custody apply start := by
  cases s with
  | @push i event task opened =>
    have hturned : (c.turn i .taking).Custody apply start :=
      h.turn (by rw [task]; rfl) rfl fun _ _ ↦ .inl rfl
    exact hturned.push opened task_turn_self event
  | ignore event task closed => exact h
  | park task => exact .waiting ((h.held_of_hand? (by rw [task]; rfl)).park (.inl rfl))
  | abandon task => exact .gone ((h.held_of_hand? (by rw [task]; rfl)).abandon task)
  | take task parked => exact .held (h.waiting_of_parked parked).take
  | leave task parked => exact h.turn (by rw [task]; rfl) rfl fun hp ↦ absurd parked hp
  | @pop i p event rest task popped =>
    have hheld := h.held_of_hand? (by rw [task]; rfl)
    obtain ⟨hevents, hclosed⟩ := Inbox.pop?_eq_some popped
    refine .held (hheld.turn (by rw [task]; rfl) rfl rfl rfl rfl hclosed rfl ?_ hheld.applied)
    exact hheld.accepted.trans (congrArg (c.applied ++ ·) hevents)
  | rest task popped =>
    have hheld := h.held_of_hand? (by rw [task]; rfl)
    exact .held
      (hheld.turn (by rw [task]; rfl) rfl rfl rfl rfl rfl rfl hheld.accepted hheld.applied)
  | @apply i p p' event task more =>
    have hheld := h.held_of_hand? (by rw [task]; rfl)
    refine .held (hheld.turn (by rw [task]; rfl) rfl rfl rfl rfl rfl rfl ?_ ?_)
    · exact hheld.accepted.trans (List.append_assoc _ _ _).symm
    · exact (foldlM_concat hheld.applied event).trans more
  | finish task ended => exact .ending ((h.held_of_hand? (by rw [task]; rfl)).finish ended)
  | close task => exact .gone ((h.ending_of_closing task).close (.inr rfl))
  | breakOff task => exact .gone ((h.ending_of_closing task).close (.inl rfl))
  | exit task => exact .gone (h.gone_of_exiting task).exit
  | yield task => exact .waiting ((h.held_of_hand? (by rw [task]; rfl)).park (.inr rfl))
  | again task news => exact h.turn (by rw [task]; rfl) rfl fun _ _ ↦ .inl rfl
  | done task quiet => exact h.turn (by rw [task]; rfl) rfl fun _ hnews ↦ absurd quiet hnews

theorem Reachable.custody (h : Reachable apply start c) : c.Custody apply start := by
  induction h with
  | new owner => exact .held (held_new owner start)
  | step h s ih => exact s.custody ih

/-! ## What threads may rely on -/

/-- What the threads at a conduit may rely on, whose request was `start` at first. -/
structure Handover (apply : P → IoEvent → Option P) (start : P) (c : Crowd P) : Prop where
  /-- One thread holds the request at most. -/
  one : ∀ i j, (c.task i).holds = true → (c.task j).holds = true → i = j
  /-- While a thread holds it, it is not parked. -/
  alone : ∀ i, (c.task i).holds = true → c.conduit.parked = none
  /-- While a thread sees to what comes of the request whose phase is over, no other does, nobody
  holds it, and it is not parked. -/
  leaving : ∀ i, c.task i = .exiting → c.conduit.parked = none ∧
    ∀ j, (c.task j).holds = false ∧ (c.task j = .exiting → j = i)
  /-- A parked request is what the events applied so far made of it. -/
  current : ∀ {p : P}, c.conduit.parked = some p → c.applied.foldlM apply start = some p
  /-- The events are applied in the order in which they were put in, and each once at most. -/
  order : c.applied <+: c.accepted
  /-- While the inbox is open every event was applied, or is being applied, or is in the inbox. -/
  kept : c.conduit.inbox.closed = false → ∃ flight : List IoEvent,
    c.accepted = c.applied ++ flight ++ c.conduit.inbox.events ∧
      (flight = [] ∨ ∃ i p event, c.task i = .applying p event ∧ flight = [event])
  /-- A closed inbox is empty. -/
  closed : c.conduit.inbox.closed = true → c.conduit.inbox.events = []
  /-- When the request was parked and no thread is at the conduit, the phase is over and the inbox
  closed, or every event was applied, the inbox is empty and the request is parked. -/
  settled : c.begun = true → (∀ i, (c.task i).isInside = false) →
    c.applied.foldlM apply start = none ∧ c.conduit.inbox.closed = true ∨
      c.applied = c.accepted ∧ c.conduit.inbox.events = [] ∧ c.conduit.parked.isSome = true

theorem Crowd.Custody.eq_of_holds (h : c.Custody apply start) {i j : Nat}
    (hi : (c.task i).holds = true) (hj : (c.task j).holds = true) : i = j := by
  have halone (hothers : ∀ k, k ≠ i → (c.task k).isIdle = true) : i = j := by
    by_cases hji : j = i
    · exact hji.symm
    · cases (Task.isIdle_of_holds hj).symm.trans (hothers j hji)
  rcases h.of_busy (Task.isIdle_of_holds hi) with ⟨p, flight, h⟩ | h | ⟨-, hexiting⟩
  · exact halone h.others
  · exact halone h.others
  · rw [hexiting] at hi
    cases hi

theorem Crowd.Custody.exists_flight (h : c.Custody apply start)
    (hopened : c.conduit.inbox.closed = false) :
    ∃ flight : List IoEvent, c.accepted = c.applied ++ flight ++ c.conduit.inbox.events ∧
      (flight = [] ∨ ∃ i p event, c.task i = .applying p event ∧ flight = [event]) := by
  cases h with
  | @held i p flight h =>
    refine ⟨flight, h.accepted.trans (List.append_assoc _ _ _).symm, ?_⟩
    exact (Task.flight_of_hand? h.hand).imp_right fun ⟨event, hevent⟩ ↦ ⟨i, p, event, hevent⟩
  | waiting h | ending h => exact ⟨[], by rw [List.append_nil]; exact h.accepted, .inl rfl⟩
  | gone h =>
    rw [h.ended] at hopened
    cases hopened

/-- A parked request waits for nobody when no thread is there: events would have kept one. -/
theorem Crowd.Waiting.settled {p : P} (h : c.Waiting apply start p)
    (haway : ∀ i, (c.task i).isInside = false) :
    c.applied = c.accepted ∧ c.conduit.inbox.events = [] := by
  have hempty : c.conduit.inbox.events = [] := by
    by_cases hevents : c.conduit.inbox.events = []
    · exact hevents
    · obtain ⟨j, hj⟩ := h.awake hevents
      have hinside := haway j
      rcases hj with hj | hj <;> rw [hj] at hinside <;> cases hinside
  have haccepted := h.accepted
  rw [hempty, List.append_nil] at haccepted
  exact ⟨haccepted.symm, hempty⟩

/-- In every state of every interleaving of any number of threads the request is handed over
safely. -/
theorem handover_of_reachable (h : Reachable apply start c) : Handover apply start c := by
  have hcustody := h.custody
  refine {
    one := fun i j hi hj ↦ hcustody.eq_of_holds hi hj
    alone := ?alone
    leaving := ?leaving
    current := fun hp ↦ (hcustody.waiting_of_parked hp).applied
    order := ?order
    kept := hcustody.exists_flight
    closed := ?closed
    settled := ?settled }
  case alone =>
    intro i hi
    rcases hcustody.of_busy (Task.isIdle_of_holds hi) with ⟨p, flight, h⟩ | h | ⟨h, -⟩ <;>
      exact h.parked
  case leaving =>
    intro i hi
    have hgone := hcustody.gone_of_exiting hi
    refine ⟨hgone.parked, fun j ↦ ⟨?_, fun hj ↦ hgone.one j i hj hi⟩⟩
    rcases hgone.idle j with hidle | hexiting
    · exact Task.holds_of_isIdle hidle
    · rw [hexiting]
      rfl
  case order =>
    cases hcustody with
    | held h | waiting h | ending h => exact ⟨_, h.accepted.symm⟩
    | gone h => exact h.accepted
  case closed =>
    intro hclosed
    cases hcustody with
    | held h | waiting h | ending h => cases hclosed.symm.trans h.opened
    | gone h => rw [h.ended]; rfl
  case settled =>
    intro hbegun haway
    cases hcustody with
    | @held i p flight h => cases (hbegun.symm.trans h.begun).trans (haway i)
    | waiting h =>
      obtain ⟨happlied, hempty⟩ := h.settled haway
      exact .inr ⟨happlied, hempty, by rw [h.parked]; rfl⟩
    | @ending i h =>
      have hinside := haway i
      rw [h.task] at hinside
      cases hinside
    | gone h => exact .inl ⟨h.applied hbegun, by rw [h.ended]; rfl⟩

/-- A request that waits for its body. -/
def bodyless : Request Scripted :=
  { Request.new 0 .normal (Scripted.new default) (.pure .unit) with
    program := none, stage := .reading (.new 4) .pure }

/-- Thread 0 parks the request, takes it and finds no event. Before it parks it again thread 1 puts
one in, finds nothing to take and goes away. Thread 0 looks once more, and applies the event. -/
theorem handover_of_reachable_late :
    ∃ c : Crowd (Request Scripted), Reachable Request.attend bodyless c ∧ c.begun = true ∧
      (∀ i, (c.task i).isInside = false) ∧ c.accepted = [.data [1, 2]] ∧
      c.applied = c.accepted ∧ c.conduit.inbox.events = [] ∧ c.conduit.parked.isSome = true := by
  have hnew : Reachable Request.attend bodyless (.new 0 bodyless) := .new 0
  have hparked := hnew.step (.park (i := 0) rfl)
  have hrested := (hparked.step (.take (i := 0) rfl rfl)).step (.rest (i := 0) rfl rfl)
  have hmissed := (hrested.step (.push (i := 1) (.data [1, 2]) rfl rfl)).step
    (.leave (i := 1) rfl rfl)
  have hagain := (hmissed.step (.yield (i := 0) rfl)).step
    (.again (i := 0) rfl (List.cons_ne_nil _ _))
  have happlied := ((hagain.step (.take (i := 0) rfl rfl)).step (.pop (i := 0) rfl rfl)).step
    (.apply (i := 0) rfl rfl)
  have hsettled := ((happlied.step (.rest (i := 0) rfl rfl)).step (.yield (i := 0) rfl)).step
    (.done (i := 0) rfl rfl)
  refine ⟨_, hsettled, rfl, ?away, rfl, ?settled⟩
  case away =>
    intro i
    rcases i with _ | _ | i <;> rfl
  case settled =>
    -- the inbox is still open
    refine ((handover_of_reachable hsettled).settled rfl ?_).resolve_left fun h ↦ by cases h.2
    intro i
    rcases i with _ | _ | i <;> rfl

end Conduit

end Turnstile
