import Mathlib.Data.List.DropRight
import Turnstile.Sensor

/-!
# The newest events

An event buffer keeps the newest of the events that it is told of, as many as it has places, oldest
first; whoever tells it, directly or as a sensor whose faults are contained, makes no difference.

Room is made before an event is added, and only if there is something to drop. So a buffer without
any place still keeps the newest event: it is as good as a buffer with one place
(`EventBuffer.tellAll_newest`).
-/

namespace Turnstile

namespace EventBuffer

/-! ## Telling -/

/-- How a buffer is told of an event. -/
inductive Way where
  /-- It is told itself. -/
  | direct
  /-- It is a sensor to whom the event is reported. -/
  | reported

/-- Tell a buffer of an event. -/
def tell (b : EventBuffer) : Way × SensorEvent → EventBuffer
  | (.direct, event) => b.record event
  | (.reported, event) => sensor.report event b

/-- Tell a buffer of events, one after the other. -/
def tellAll (b : EventBuffer) (told : List (Way × SensorEvent)) : EventBuffer := told.foldl tell b

theorem tell_eq_record (b : EventBuffer) (told : Way × SensorEvent) :
    b.tell told = b.record told.2 := by
  obtain ⟨way, event⟩ := told
  cases way <;> rfl

/-! ## Keeping -/

variable {b : EventBuffer} {events : List SensorEvent}

/-- The buffer keeps the newest of some events: as many as it has places, and one at least. -/
def Keeps (b : EventBuffer) (events : List SensorEvent) : Prop :=
  b.events = events.rtake (max 1 b.maxEvents)

@[simp] theorem maxEvents_record (b : EventBuffer) (event : SensorEvent) :
    (b.record event).maxEvents = b.maxEvents := by
  rw [record]
  split <;> rfl

theorem keeps_empty (maxEvents : Nat) : (empty maxEvents).Keeps [] := (List.rtake_nil _).symm

/-- One more event: the oldest goes if there are as many as there are places. -/
theorem Keeps.record (h : b.Keeps events) (event : SensorEvent) :
    (b.record event).Keeps (events ++ [event]) := by
  obtain ⟨rest, hplaces⟩ : ∃ rest, max 1 b.maxEvents = rest + 1 :=
    ⟨max 1 b.maxEvents - 1, by omega⟩
  rw [Keeps, hplaces, List.rtake] at h
  have hlength : b.events.length = events.length - (events.length - (rest + 1)) := by
    rw [h, List.length_drop]
  rw [Keeps, maxEvents_record, hplaces, List.rtake_concat_succ, List.rtake, EventBuffer.record]
  split
  next hfull =>
    rw [h, List.drop_drop]
    -- without a place there may be nothing to drop
    rcases events with _ | ⟨first, events⟩
    · simp
    · simp only [List.length_cons] at *
      congr 2
      omega
  next hroom =>
    have hall : events.length - (rest + 1) = 0 ∧ events.length - rest = 0 := by omega
    rw [h, hall.1, hall.2]

theorem Keeps.tellAll (h : b.Keeps events) (told : List (Way × SensorEvent)) :
    (b.tellAll told).Keeps (events ++ told.map Prod.snd) ∧
      (b.tellAll told).maxEvents = b.maxEvents := by
  induction told generalizing b events with
  | nil => simpa [EventBuffer.tellAll] using h
  | cons telling told ih =>
    have hrest := ih (h.record telling.2)
    rw [maxEvents_record, ← tell_eq_record] at hrest
    rw [List.map_cons, List.append_cons]
    exact hrest

theorem events_tellAll (maxEvents : Nat) (told : List (Way × SensorEvent)) :
    ((empty maxEvents).tellAll told).events = (told.map Prod.snd).rtake (max 1 maxEvents) := by
  obtain ⟨hkeeps, hplaces⟩ := (keeps_empty maxEvents).tellAll told
  rw [Keeps, hplaces] at hkeeps
  exact hkeeps

/-- The newest events for `n` places and one at least are those for `n` places, unless there is no
place and there are events. -/
theorem rtake_max_one_iff (n : Nat) :
    events.rtake (max 1 n) = events.rtake (min n events.length) ↔ 0 < n ∨ events = [] := by
  constructor
  · intro h
    have hlength := congrArg List.length h
    simp only [List.rtake, List.length_drop] at hlength
    rw [← List.length_eq_zero_iff]
    omega
  · rintro (hpos | rfl)
    · rw [List.rtake, List.rtake]
      congr 1
      omega
    · simp

/-- **A buffer keeps the newest events, oldest first.** If the room for its places can be had, the
events it is told of last are kept, as many as it has places; only that a buffer without any place
keeps one. -/
theorem tellAll_newest (maxEvents : Nat) (told : List (Way × SensorEvent)) :
    (reserve maxEvents).map (fun b ↦ (b.tellAll told).events) =
        (Room.ask maxEvents eventSize).map
          (fun _ ↦ (told.map Prod.snd).rtake (max 1 maxEvents)) ∧
      (((empty maxEvents).tellAll told).events =
          (told.map Prod.snd).rtake (min maxEvents told.length) ↔ 0 < maxEvents ∨ told = []) := by
  constructor
  · rw [reserve]
    cases Room.ask maxEvents eventSize with
    | error fault => rfl
    | ok => exact congrArg Except.ok (events_tellAll maxEvents told)
  · rw [events_tellAll]
    simpa using @rtake_max_one_iff (told.map Prod.snd) maxEvents

/-- A buffer without any place, of which nothing should be left to see, keeps an event. -/
theorem tellAll_newest_noPlace :
    ∃ b, reserve 0 = .ok b ∧
      (b.tellAll [(.direct, .connectionError 1 "a")]).events ≠
        [SensorEvent.connectionError 1 "a"].rtake (min 0 1) :=
  ⟨empty 0, rfl, by decide⟩

end EventBuffer

end Turnstile
