import Turnstile.Proofs.Scheduler.Locality
import Turnstile.Proofs.Scheduler.Priority

/-!
# The queue and the requests in it

The class of a waiting request is written down three times: in its dossier, in the rank under which
it stands in the queue, and in the index that finds this rank. The classifier, the program of the
request, whoever moves it to another class, and the scheduler that queues it write to different
ones of these, and in every state of every run all three say the same. So whoever waits can be
found and moved, and a program that asks for the class of its request hears the one by which the
request was served.
-/

namespace Turnstile

theorem Request.turn_of_getQos {σ : Type} [Exchange σ] {r : Request σ} {p : Program}
    {next : Value → Program} (hp : r.program = some p) (hrun : p.run = .suspended .getQos next) :
    r.turn.1 = r.resume .running next (.qos r.dossier.qos) := by
  rw [turn, hp]
  dsimp only
  rw [hrun]
  rfl

namespace Scheduler

variable {σ : Type} {s : Scheduler σ} {n : Nat} {r : Request σ} {rank : Rank} {qos : Qos}

/-! ## Whoever waits stands in the queue -/

theorem Placed.mem_entries (hp : s.Placed) (hb : s.pool.Balanced) :
    rank ∈ s.pool.queue.entries ↔
      ∃ r, s.requests[rank.ordinal]? = some r ∧ r.stage = .queued ∧ r.dossier.qos = rank.qos := by
  rw [hb.synced rank]
  constructor
  · exact hp.queued
  · rintro ⟨r, hr, hstage, hqos⟩
    rw [hp.queue, hr, Option.bind_some, Request.waitsAs?,
      if_pos (Stage.place_eq_queue.mpr hstage), hqos]

/-! ## Moving a request to another class -/

/-- What moving the request with an ordinal to another class does. -/
structure Reranked (s : Scheduler σ) (n : Nat) (qos : Qos) (s' : Scheduler σ) : Prop where
  /-- It stands under its new rank, and the others under theirs. -/
  entries : ∀ {rank : Rank}, rank ∈ s'.pool.queue.entries ↔
    rank = ⟨qos, n⟩ ∨ rank.ordinal ≠ n ∧ rank ∈ s.pool.queue.entries
  /-- The others stand in the same order as before. -/
  order : s'.pool.queue.toList.filter (·.1.ordinal ≠ n) =
    s.pool.queue.toList.filter (·.1.ordinal ≠ n)
  /-- It has the new class, and nothing else of it changes. -/
  request : ∀ {r : Request σ}, s.requests[n]? = some r →
    s'.requests[n]? = some { r with dossier := { r.dossier with qos } }
  /-- The other requests stay as they are. -/
  others : ∀ {k : Nat}, k ≠ n → s'.requests[k]? = s.requests[k]?
  /-- Nothing else changes. -/
  frame : s' = { s with
    pool := { s.pool with queue := s'.pool.queue }, requests := s'.requests }

/-- A request is moved to another class exactly if it waits. -/
theorem Placed.reprioritize_iff (hp : s.Placed) (hb : s.pool.Balanced) :
    (s.reprioritize n qos).1 = true ↔ ∃ r, s.requests[n]? = some r ∧ r.stage = .queued := by
  have hfound : s.pool.queue.reprioritize? n qos = none ↔ n ∉ s.pool.queue.ordinals := by
    rw [hb.synced.reprioritize?_eq_none_iff, hb.synced.mem_ordinals]
    simp [Option.eq_none_iff_forall_ne_some]
  rw [← hp.mem_ordinals hb, reprioritize, Pool.reprioritize?]
  cases hmoved : s.pool.queue.reprioritize? n qos with
  | none => simpa using hfound.mp hmoved
  | some taken =>
    have hmem : n ∈ s.pool.queue.ordinals := by
      by_contra hn
      rw [hfound.mpr hn] at hmoved
      cases hmoved
    obtain ⟨r, hr, -⟩ := (hp.mem_ordinals hb).mp hmem
    simpa [hr] using hmem

theorem reprioritize_of_false (h : (s.reprioritize n qos).1 = false) :
    (s.reprioritize n qos).2 = s := by
  unfold reprioritize at h ⊢
  split at h
  · cases h
  · rfl

theorem Sound.reranked (hs : s.Sound) (h : (s.reprioritize n qos).1 = true) :
    s.Reranked n qos (s.reprioritize n qos).2 := by
  unfold reprioritize at h ⊢
  split at h
  next pool r hpool hr =>
    obtain ⟨⟨item, queue⟩, hmoved, rfl⟩ := Option.map_eq_some_iff.mp hpool
    have hput (k : Nat) := hs.numbered.getElem?_put (n := k) hr
      (r := { r with dossier := { r.dossier with qos } }) rfl
    exact {
      entries := hs.balanced.synced.mem_entries_reprioritize? hmoved _
      order := Queue.toList_reprioritize? hmoved
      request := by
        intro r' hr'
        cases hr.symm.trans hr'
        exact (hput n).trans (if_pos rfl)
      others := fun hk ↦ (hput _).trans (if_neg (Ne.symm hk))
      frame := rfl }
  · cases h

/-! ## The class that a program is told -/

variable [Exchange σ]

/-- In this run nobody gives a class to the request with an ordinal. -/
def Unclassed (n : Nat) : Scheduler σ → List (Move σ) → Prop
  | _, [] => True
  | s, m :: moves => s.givenBy? n m = none ∧ Unclassed n (s.perform m) moves

theorem given?_of_unclassed {moves : List (Move σ)} (h : s.Unclassed n moves)
    (before : Option Qos) : given? n s before moves = before := by
  induction moves generalizing s with
  | nil => rfl
  | cons m moves ih =>
    obtain ⟨hm, hrest⟩ := h
    rw [given?, hm, Option.none_or]
    exact ih hrest

/-- A request that is taken out of the queue keeps the class under which it stood there. -/
theorem Reachable.class?_promoted (h : s.Reachable) {m : Move σ} {r' : Request σ}
    (hrank : rank ∈ s.pool.queue.entries) (hr' : (s.perform m).requests[rank.ordinal]? = some r')
    (hready : r'.stage = .ready) : (s.perform m).class? rank.ordinal = some rank.qos := by
  have hs := h.sound
  obtain ⟨r, hr, hqueued, hqos⟩ := (h.placed.mem_entries hs.balanced).mp hrank
  rw [h.class?_perform m]
  -- nobody gives a class with the move: the request would still wait, or would have arrived with it
  have hgiven : s.givenBy? rank.ordinal m = none := by
    cases m with
    | arrive exchange program => exact if_neg (Nat.ne_of_gt (lt_size hr))
    | advance k =>
      rw [givenBy?, hr, Option.bind_some,
        Request.setsQos?_of_ne_running (by rw [hqueued]; exact Stage.noConfusion), ite_self]
    | reprioritize k qos =>
      refine if_neg ?_
      rintro ⟨rfl, hmoved⟩
      have hkept := (hs.reranked hmoved).request hr
      cases hr'.symm.trans hkept
      rw [hqueued] at hready
      cases hready
    | _ => rfl
  rw [hgiven, Option.none_or, class?, hr, Option.map_some, hqos]

/-! ## Queue and requests -/

/-- What holds of a state about the queue and the requests in it. -/
structure Ranked (s : Scheduler σ) : Prop where
  /-- Under a rank in the queue stands the request with its ordinal. It has the class of the rank,
  waits, and is not over. -/
  entry : ∀ {rank : Rank}, rank ∈ s.pool.queue.entries → ∃ r, s.requests[rank.ordinal]? = some r ∧
    r.dossier.qos = rank.qos ∧ r.ordinal = rank.ordinal ∧ r.stage = .queued ∧ r.closed = false
  /-- The index has the class of the rank under its ordinal, and nothing else. -/
  index : ∀ {rank : Rank}, rank ∈ s.pool.queue.entries ↔
    s.pool.queue.index[rank.ordinal]? = some rank.qos
  /-- Whoever waits stands in the queue. -/
  waiting : ∀ {n : Nat} {r : Request σ}, s.requests[n]? = some r → r.stage = .queued →
    r.rank ∈ s.pool.queue.entries
  /-- A request is moved to another class exactly if it waits. -/
  moved_iff : ∀ {n : Nat} {qos : Qos}, (s.reprioritize n qos).1 = true ↔
    ∃ r, s.requests[n]? = some r ∧ r.stage = .queued
  /-- Moving a request concerns nobody else. -/
  moved : ∀ {n : Nat} {qos : Qos}, (s.reprioritize n qos).1 = true →
    s.Reranked n qos (s.reprioritize n qos).2
  /-- Whoever does not wait is left alone. -/
  unmoved : ∀ {n : Nat} {qos : Qos}, (s.reprioritize n qos).1 = false →
    (s.reprioritize n qos).2 = s
  /-- A request stands in the queue under a rank and is given a slot. Whenever its program asks for
  its class after that, it is told the class of this rank, or the one given to it last since. -/
  asked : ∀ {rank : Rank} {m : Move σ} {promoted : Request σ} {moves : List (Move σ)}
    {r : Request σ} {p : Program} {next : Value → Program}, rank ∈ s.pool.queue.entries →
    (s.perform m).requests[rank.ordinal]? = some promoted → promoted.stage = .ready →
    ((s.perform m).performAll moves).requests[rank.ordinal]? = some r → r.stage = .running →
    r.program = some p → p.run = .suspended .getQos next →
    ∃ qos, given? rank.ordinal (s.perform m) (some rank.qos) moves = some qos ∧
      ((s.perform m).Unclassed rank.ordinal moves → qos = rank.qos) ∧
      (((s.perform m).performAll moves).perform (.advance rank.ordinal)).requests[rank.ordinal]? =
        some (r.resume .running next (.qos qos))

/-- After every run, the queue and the requests in it agree. -/
theorem performAll_ranked {config : Config} {hooks : Hooks} (h : start? config hooks = .ok s)
    (moves : List (Move σ)) : (s.performAll moves).Ranked := by
  have hreachable := (reachable_of_start? h).performAll moves
  have hs := hreachable.sound
  have hp := hreachable.placed
  have hentry {rank : Rank} : rank ∈ (s.performAll moves).pool.queue.entries ↔ _ :=
    hp.mem_entries hs.balanced
  exact {
    entry := by
      intro rank hrank
      obtain ⟨r, hr, hqueued, hqos⟩ := hentry.mp hrank
      refine ⟨r, hr, hqos, hs.numbered.ordinal hr, hqueued, (hs.wellFormed hr).closed ?_⟩
      rw [hqueued]
      rfl
    index := hs.balanced.synced _
    waiting := by
      intro n r hr hqueued
      refine hentry.mpr ⟨r, ?_, hqueued, rfl⟩
      rw [Request.rank, hs.numbered.ordinal hr, hr]
    moved_iff := hp.reprioritize_iff hs.balanced
    moved := hs.reranked
    unmoved := reprioritize_of_false
    asked := by
      intro rank m promoted more r p next hrank hpromoted hready hr hrunning hprogram hrun
      have hlater := (hreachable.move m).performAll more
      have hgiven := (hreachable.move m).class?_performAll (n := rank.ordinal) more
      rw [hreachable.class?_promoted hrank hpromoted hready, class?, hr] at hgiven
      refine ⟨r.dossier.qos, hgiven.symm, fun hkept ↦ ?_, ?_⟩
      · rw [given?_of_unclassed hkept] at hgiven
        exact Option.some.inj hgiven
      · rw [(hlater.affects rfl hr).self, Circumstances.perform, Circumstances.advance, hrunning]
        exact congrArg some (Request.turn_of_getQos hprogram hrun) }

/-- When a slot is given back and no job is left, the first of those who wait gets the slot and can
be picked up. -/
theorem Reachable.served_next (h : s.Reachable) {exit : Exit} {first : Nat} {rest : List Nat}
    {q : Request σ} (hr : s.requests[n]? = some r) (hstage : r.stage = .leaving exit)
    (hjobs : s.jobs = []) (hline : s.pool.queue.ordinals = first :: rest)
    (hq : s.requests[first]? = some q) :
    (s.perform (.advance n)).requests[first]? = some { q with stage := .ready } ∧
      ((s.perform (.advance n)).perform (.advance first)).requests[first]? =
        some { q with stage := .running } := by
  have hs := h.sound
  obtain ⟨q₁, hq₁, hready⟩ := h.exists_promoted hr hstage hline
  have hmem : first ∈ s.pool.queue.ordinals := hline ▸ List.mem_cons_self
  obtain ⟨q₀, hq₀, hqueued⟩ := (h.placed.mem_ordinals hs.balanced).mp hmem
  cases hq.symm.trans hq₀
  have hne : first ≠ n := by
    rintro rfl
    cases hq.symm.trans hr
    rw [hqueued] at hstage
    cases hstage
  obtain ⟨q₂, hq₂, hrestaged, -⟩ := (h.affects (m := .advance n) rfl hr).others hne hq
  cases hq₁.symm.trans hq₂
  have hq₁' : q₁ = { q with stage := .ready } := by
    rcases hrestaged with rfl | ⟨-, stage, -, rfl⟩
    · rw [hqueued] at hready
      cases hready
    · rw [show stage = .ready from hready]
  subst hq₁'
  refine ⟨hq₁, ?_⟩
  -- nobody was named before the one promoted, so the worker picks this one up
  have hfirst : (s.perform (.advance n)).jobs.head? = some first := by
    have hlive : 0 < s.pool.live := h.placed.live_pos hr (by rw [hstage]; rfl)
    rw [perform, advance, hr]
    dsimp only
    rw [advanceRequest, hstage]
    dsimp only
    rw [release_eq hs.balanced, restageAll_jobs, hjobs,
      (hs.balanced.release_promoted hlive hline).1]
    rfl
  rw [((h.move (.advance n)).affects (m := .advance first) rfl hq₁).self, Circumstances.perform,
    Circumstances.advance]
  simp [circumstances, hfirst, hs.numbered.ordinal hq]

/-- One request holds the slot, and another waits whose program asks for its class. This is moved
to a lower class and then to a higher one, and the program of the first request ends. -/
def movedTwice : List (Move Scripted) :=
  [.arrive (.new default) (.pure .unit), .advance 0, .advance 0,
    .arrive (.new default) (.suspend .getQos), .advance 1,
    .reprioritize 1 .low, .reprioritize 1 .high, .advance 0]

/-- The request that waits is given the slot, is picked up, and is told the class that it was moved
to last. -/
theorem performAll_ranked_movedTwice :
    start? (.sized 1) (.plain .normal) = .ok oneWorker ∧
      (⟨.high, 1⟩ : Rank) ∈ (oneWorker.performAll movedTwice).pool.queue.entries ∧
      ∃ (r : Request Scripted) (next : Value → Program),
        ((oneWorker.performAll movedTwice).performAll
          [.advance 0, .advance 1, .advance 1]).requests[1]? =
            some (r.resume .running next (.qos .high)) := by
  have hstart : start? (.sized 1) (.plain .normal) = .ok oneWorker := rfl
  have hranked := performAll_ranked hstart movedTwice
  have hreachable := (reachable_of_start? hstart).performAll movedTwice
  have hleaving : (oneWorker.performAll movedTwice).requests[0]?.map Request.stage =
      some (.leaving (.fail .noResponse)) := by cbv
  have hwaits : (oneWorker.performAll movedTwice).requests[1]?.map
      (fun r ↦ (r.rank, r.stage, r.program)) =
        some (⟨.high, 1⟩, .queued, some (.suspend .getQos)) := by cbv
  obtain ⟨r, hr, hstage⟩ := Option.map_eq_some_iff.mp hleaving
  obtain ⟨q, hq, hwaits⟩ := Option.map_eq_some_iff.mp hwaits
  simp only [Prod.mk.injEq] at hwaits
  obtain ⟨hrank, hqueued, hprogram⟩ := hwaits
  have hentry := hranked.waiting hq hqueued
  rw [hrank] at hentry
  obtain ⟨hpromoted, hpicked⟩ := hreachable.served_next hr hstage (by cbv) (by cbv) hq
  have hrunning : (((oneWorker.performAll movedTwice).perform (.advance 0)).performAll
      [.advance 1]).requests[1]? = some { q with stage := .running } := hpicked
  obtain ⟨qos, -, hkept, htold⟩ := hranked.asked hentry hpromoted rfl hrunning rfl hprogram
    (Routine.run_of_reduce_inl rfl)
  have hquiet : ((oneWorker.performAll movedTwice).perform (.advance 0)).givenBy? 1 (.advance 1) =
      none := by
    rw [givenBy?, if_pos rfl, hpromoted, Option.bind_some]
    exact Request.setsQos?_of_ne_running Stage.noConfusion
  obtain rfl := hkept ⟨hquiet, trivial⟩
  exact ⟨hstart, hentry, _, _, htold⟩

end Scheduler

end Turnstile
