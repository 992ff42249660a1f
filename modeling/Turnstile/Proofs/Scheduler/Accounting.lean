import Mathlib.Data.List.Induction
import Turnstile.Exchange.Scripted
import Turnstile.Proofs.Scheduler.Course

/-!
# Accounting

Where the requests are that were accepted and have not left. By what the scheduler keeps outside
the requests, each is in one of three places: in the queue, on a slot (among the jobs or with a
worker), or off its slot. `Scheduler.Accounted` says that it is in exactly one, that the counters
are the numbers of requests in the places, and what follows: no counter is taken below zero, the
scheduler is idle when nobody is counted, and nobody is ever without a program where a worker looks
for one.

## Requests that are lost

A request that the transport forgets while it waits is dropped, but stays counted as off its slot
forever. Where nothing is forgotten nobody is lost.
-/

namespace Turnstile

namespace Scheduler

variable {σ : Type} {s s' : Scheduler σ} {m : Move σ} {n : Nat} {r r' : Request σ}

/-- The request is in the queue. -/
def inQueue (s : Scheduler σ) (n : Nat) : Bool := s.pool.queue.contains n

/-- The request is among the jobs, or with a worker. -/
def onSlot (s : Scheduler σ) (n : Nat) : Bool := s.jobs.contains n || s.placeOf? n = some .worker

/-- The request is among those taken out of the queue by the stop, or on its way through a conduit,
back to a slot, or out. -/
def offSlot (s : Scheduler σ) (n : Nat) : Bool := s.draining.contains n || s.placeOf? n = some .away

/-- How many requests some question is true of. -/
def tally (s : Scheduler σ) (question : Nat → Bool) : Nat :=
  (List.range s.requests.size).countP question

/-- Everybody who was accepted and has not left is in one place and counted there. -/
structure Accounted (s : Scheduler σ) : Prop where
  /-- A request that was accepted and has not left is in exactly one of the three places. -/
  onePlace : ∀ {n : Nat} {r : Request σ}, s.requests[n]? = some r → r.stage ≠ .arriving →
    (∀ reason, r.stage ≠ .refusing reason false) → (∀ ending, r.stage ≠ .gone ending) →
    [s.inQueue n, s.onSlot n, s.offSlot n].count true = 1
  /-- Nobody else is in any of them. -/
  nobodyElse : ∀ {n : Nat}, (s.inQueue n || s.onSlot n || s.offSlot n) = true →
    ∃ r, s.requests[n]? = some r ∧ r.stage ≠ .arriving ∧
      (∀ reason, r.stage ≠ .refusing reason false) ∧ ∀ ending, r.stage ≠ .gone ending
  /-- The length of the queue is the number of those in it. -/
  queue : s.pool.queue.size = s.tally s.inQueue
  /-- The slots taken are those of the requests on a slot. -/
  live : s.pool.live = s.tally s.onSlot
  /-- The requests outstanding are those in the three places. -/
  outstanding :
    s.pool.outstanding = s.tally s.inQueue + s.tally s.onSlot + s.tally s.offSlot
  /-- Whoever gives a slot back was counted as live. -/
  release : ∀ {n : Nat} {r : Request σ} {exit : Exit}, s.requests[n]? = some r →
    r.stage = .leaving exit → 0 < s.pool.live
  /-- Whoever leaves was counted as outstanding. -/
  retire : ∀ {n : Nat} {r : Request σ}, s.requests[n]? = some r →
    r.stage = .finishing → 0 < s.pool.outstanding
  /-- Whoever is refused after being accepted was counted as outstanding. -/
  refuse : ∀ {n : Nat} {r : Request σ} {reason : Refusal}, s.requests[n]? = some r →
    r.stage = .refusing reason true → 0 < s.pool.outstanding
  /-- Whoever is refused because of the stop was counted as outstanding. -/
  drain : s.draining ≠ [] → 0 < s.pool.outstanding
  /-- The scheduler is idle if nobody is outstanding. -/
  idle : s.isIdle = true ↔ s.pool.outstanding = 0
  /-- Whoever waits for a worker, or is with one and about to run, has a program. -/
  program : ∀ {n : Nat} {r : Request σ}, s.requests[n]? = some r →
    r.stage = .queued ∨ r.stage = .ready ∨ r.stage = .running ∨ r.stage = .gated →
    r.program.isSome = true
  /-- Nobody failed for want of a program. -/
  found : ∀ {n : Nat} {r : Request σ}, s.requests[n]? = some r →
    r.stage ≠ .leaving (.fail .noProgram) ∧ r.stage ≠ .departed (.fail .noProgram) ∧
      r.stage ≠ .failing .noProgram

/-! ## Places by stage -/

theorem Placed.inQueue_iff (hp : s.Placed) :
    s.inQueue n = true ↔ s.placeOf? n = some .queue := by
  rw [inQueue, Queue.contains, Std.TreeMap.contains_eq_isSome_getElem?, hp.queue, placeOf?]
  cases h : s.requests[n]? with
  | none => simp
  | some r =>
    rw [Option.bind_some, Option.map_some, Option.some_inj, Request.waitsAs?]
    split
    next hplace => simp [hplace]
    next hplace => simp [hplace]

theorem Placed.onSlot_iff (hp : s.Placed) :
    s.onSlot n = true ↔ ∃ place, s.placeOf? n = some place ∧ place.onSlot = true := by
  rw [onSlot, Bool.or_eq_true, List.contains_iff_mem, hp.jobs, decide_eq_true_eq]
  constructor
  · rintro (h | h) <;> exact ⟨_, h, rfl⟩
  · rintro ⟨place, h, hplace⟩
    cases place with
    | job => exact .inl h
    | worker => exact .inr h
    | _ => cases hplace

theorem Placed.offSlot_iff (hp : s.Placed) :
    s.offSlot n = true ↔ ∃ place, s.placeOf? n = some place ∧ place.offSlot = true := by
  rw [offSlot, Bool.or_eq_true, List.contains_iff_mem, hp.draining, decide_eq_true_eq]
  constructor
  · rintro (h | h) <;> exact ⟨_, h, rfl⟩
  · rintro ⟨place, h, hplace⟩
    cases place with
    | drain => exact .inl h
    | away => exact .inr h
    | _ => cases hplace

theorem inside_iff {stage : Stage} :
    stage.place.inside = true ↔ stage ≠ .arriving ∧ (∀ reason, stage ≠ .refusing reason false) ∧
      ∀ ending, stage ≠ .gone ending := by
  cases stage with
  | refusing reason admitted => cases admitted <;> simp [Stage.place, Place.inside]
  | _ => simp [Stage.place, Place.inside]

/-! ## Counting -/

/-- Counting the items of a list is counting the positions that hold them. -/
theorem countP_eq_countP_range {α : Type} (p : α → Bool) (xs : List α) :
    xs.countP p = (List.range xs.length).countP fun n ↦ xs[n]?.any p := by
  induction xs using List.reverseRecOn with
  | nil => rfl
  | append_singleton xs x ih =>
    rw [List.countP_append, List.length_append, List.length_singleton, List.range_succ,
      List.countP_append, ih]
    congr 1
    · refine List.countP_congr fun n hn ↦ ?_
      rw [List.getElem?_append_left (List.mem_range.mp hn)]
    · simp

theorem count_eq_tally {kind : Stage → Bool} {question : Nat → Bool}
    (h : ∀ n, question n = true ↔ ∃ r, s.requests[n]? = some r ∧ kind r.stage = true) :
    s.count kind = s.tally question := by
  rw [count, ← Array.countP_toList, countP_eq_countP_range, tally, Array.length_toList]
  refine List.countP_congr fun n _ ↦ ?_
  rw [h, Array.getElem?_toList, Option.any_eq_true]

theorem population_eq_tally {kind : Place → Bool} {question : Nat → Bool}
    (h : ∀ n, question n = true ↔ ∃ place, s.placeOf? n = some place ∧ kind place = true) :
    s.population kind = s.tally question := by
  refine count_eq_tally fun n ↦ (h n).trans ?_
  simp only [placeOf?, Option.map_eq_some_iff]
  constructor
  · rintro ⟨_, ⟨r, hr, rfl⟩, hkind⟩
    exact ⟨r, hr, hkind⟩
  · rintro ⟨r, hr, hkind⟩
    exact ⟨_, ⟨r, hr, rfl⟩, hkind⟩

/-- Everybody inside is in the queue, on a slot or off it. -/
theorem population_inside (s : Scheduler σ) :
    s.population Place.inside =
      s.population Place.waiting + s.population Place.onSlot + s.population Place.offSlot := by
  simp only [population, count, ← Array.countP_toList]
  induction s.requests.toList with
  | nil => rfl
  | cons r rs ih =>
    simp only [List.countP_cons, ih]
    cases r.stage.place <;>
      simp [Place.inside, Place.waiting, Place.onSlot, Place.offSlot] <;> omega

/-! ## Everybody is accounted for -/

theorem Placed.inQueue_iff_waiting (hp : s.Placed) (n : Nat) :
    s.inQueue n = true ↔ ∃ place, s.placeOf? n = some place ∧ place.waiting = true := by
  rw [hp.inQueue_iff]
  constructor
  · exact fun h ↦ ⟨_, h, rfl⟩
  · rintro ⟨place, h, hplace⟩
    cases place with
    | queue => exact h
    | _ => cases hplace

theorem Placed.accounted (hs : s.Sound) (hp : s.Placed) : s.Accounted where
  onePlace {n r} hr harriving hrefusing hgone := by
    -- each of the three says what the place of the request says, so the cases are the places
    have hinside := inside_iff.mpr ⟨harriving, hrefusing, hgone⟩
    have hplace : s.placeOf? n = some r.stage.place := by rw [placeOf?, hr, Option.map_some]
    have hqueue := hp.inQueue_iff_waiting n
    have hslot := hp.onSlot_iff (n := n)
    have hoff := hp.offSlot_iff (n := n)
    simp only [hplace, Option.some_inj, exists_eq_left'] at hqueue hslot hoff
    rw [Bool.eq_iff_iff.mpr hqueue, Bool.eq_iff_iff.mpr hslot, Bool.eq_iff_iff.mpr hoff]
    cases hkind : r.stage.place <;> rw [hkind] at hinside <;> first | rfl | cases hinside
  nobodyElse {n} h := by
    obtain ⟨place, hplace, hinside⟩ : ∃ place, s.placeOf? n = some place ∧ place.inside = true := by
      rw [Bool.or_eq_true, Bool.or_eq_true, hp.inQueue_iff_waiting, hp.onSlot_iff,
        hp.offSlot_iff] at h
      rcases h with (⟨place, hplace, hkind⟩ | ⟨place, hplace, hkind⟩) | ⟨place, hplace, hkind⟩ <;>
        exact ⟨place, hplace, by cases place <;> first | rfl | cases hkind⟩
    obtain ⟨r, hr, rfl⟩ := Option.map_eq_some_iff.mp hplace
    exact ⟨r, hr, inside_iff.mp hinside⟩
  queue := hp.size.trans (population_eq_tally hp.inQueue_iff_waiting)
  live := hp.live.trans (population_eq_tally fun _ ↦ hp.onSlot_iff)
  outstanding := by
    rw [hp.outstanding, population_inside, population_eq_tally hp.inQueue_iff_waiting,
      population_eq_tally fun _ ↦ hp.onSlot_iff, population_eq_tally fun _ ↦ hp.offSlot_iff]
  release hr h := hp.live_pos hr (by rw [h]; rfl)
  retire hr h := hp.outstanding_pos hr (by rw [h]; rfl)
  refuse hr h := hp.outstanding_pos hr (by rw [h]; rfl)
  drain h := by
    obtain ⟨n, hn⟩ := List.exists_mem_of_ne_nil _ h
    obtain ⟨r, hr, hplace⟩ := Option.map_eq_some_iff.mp ((hp.draining n).mp hn)
    exact hp.outstanding_pos hr (by rw [hplace]; rfl)
  idle := by
    -- a sum of counters is zero only if each of them is
    have hsum := population_inside s
    rw [← hp.outstanding, ← hp.size, ← hp.live] at hsum
    rw [isIdle, Pool.isIdle, Bool.and_eq_true, Bool.and_eq_true, decide_eq_true_eq,
      decide_eq_true_eq]
    refine ⟨And.right, fun h ↦ ⟨⟨by omega, ?_⟩, h⟩⟩
    have hsize : s.pool.queue.size = 0 := by omega
    rw [Queue.isEmpty, Std.TreeMap.isEmpty_eq_size_eq_zero]
    exact beq_iff_eq.mpr hsize
  program hr h := by
    refine (hs.wellFormed hr).program ?_
    rcases h with h | h | h | h <;> rw [h] <;> rfl
  found hr := by
    have hfound := (hs.wellFormed hr).found
    refine ⟨?_, ?_, ?_⟩ <;> intro h <;> rw [h] at hfound <;> cases hfound

variable [Exchange σ]

theorem Reachable.accounted (h : s.Reachable) : s.Accounted := h.placed.accounted h.sound

/-- What a move brings to a request is that it is forgotten only if the move forgets it. -/
theorem Move.input_ne_forgotten (h : m ≠ .forget n) : m.input n r ≠ .forgotten := by
  cases m with
  | forget k =>
    rw [input, if_neg (by rintro rfl; exact h rfl)]
    simp
  | advance k =>
    rw [input]
    split
    · unfold Request.nextInput
      split
      · split
        split <;> simp
      · simp
    · simp
  | deliver k direction events => rw [input]; split <;> simp
  | reprioritize k qos => rw [input]; split <;> simp
  | _ => simp [input]

theorem Reachable.ne_lost (h : s.Reachable) (hs : ∀ (n : Nat) (r : Request σ),
    s.requests[n]? = some r → r.stage ≠ .lost) (moves : List (Move σ))
    (hmoves : ∀ n, .forget n ∉ moves) (hr : (s.performAll moves).requests[n]? = some r) :
    r.stage ≠ .lost := by
  induction moves generalizing s with
  | nil => exact hs n r hr
  | cons m moves ih =>
    refine ih (h.move m) ?_ (fun k hk ↦ hmoves k (List.mem_cons_of_mem m hk)) hr
    intro k r' hr'
    have hchange := h.change m
    by_cases hk : k < s.requests.size
    · have hold := Array.getElem?_eq_getElem hk
      obtain ⟨r'', told, hr'', -, hstep⟩ := hchange.step h.sound hold
      cases hr'.symm.trans hr''
      refine hstep.ne_lost (h.sound.wellFormed hold) ?_ (hs k _ hold)
      refine Move.input_ne_forgotten fun hm ↦ hmoves k ?_
      rw [hm]
      exact List.mem_cons_self
    · obtain ⟨rfl, exchange, program, harrive⟩ :=
        hchange.arrived h.sound (Nat.le_of_not_lt hk) hr'
      rw [harrive, (h.arrival exchange program).1] at hr'
      cases hr'
      simp [Request.new]

/-- After every run everybody who was accepted and has not left is in one place and counted there,
and nobody is lost but those whom the transport forgot. -/
theorem performAll_accounted {config : Config} {hooks : Hooks} (h : start? config hooks = .ok s)
    (moves : List (Move σ)) :
    (s.performAll moves).Accounted ∧
      ((∀ n, .forget n ∉ moves) → ∀ (n : Nat) (r : Request σ),
        (s.performAll moves).requests[n]? = some r → r.stage ≠ .lost) := by
  have hstart := reachable_of_start? h
  refine ⟨(hstart.performAll moves).accounted, fun hmoves n r hr ↦ ?_⟩
  refine hstart.ne_lost ?_ moves hmoves hr
  obtain ⟨-, rfl⟩ := start?_eq_ok h
  intro n r hr
  simp [new] at hr

/-- Two requests arrive at one worker, ask for a slot, and the first is picked up. -/
def pickedUp : List (Move Scripted) :=
  [.arrive (.new default) (.pure .unit), .advance 0, .arrive (.new default) (.pure .unit),
    .advance 1, .advance 0]

/-- With one worker, the first of two requests is with it and the second is in the queue. -/
theorem performAll_accounted_pickedUp :
    start? (.sized 1) (.plain .normal) =
        .ok (new (.sized 1) (.plain .normal) : Scheduler Scripted) ∧
      1 = ((new (.sized 1) (.plain .normal)).performAll pickedUp).tally
        ((new (.sized 1) (.plain .normal)).performAll pickedUp).onSlot ∧
      1 = ((new (.sized 1) (.plain .normal)).performAll pickedUp).tally
        ((new (.sized 1) (.plain .normal)).performAll pickedUp).inQueue := by
  have hstart : start? (.sized 1) (.plain .normal) =
      .ok (new (.sized 1) (.plain .normal) : Scheduler Scripted) := rfl
  have haccounted := (performAll_accounted hstart pickedUp).1
  exact ⟨hstart, haccounted.live, haccounted.queue⟩

end Scheduler

end Turnstile
