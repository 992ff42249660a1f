import Turnstile.Exchange.Scripted
import Turnstile.Proofs.Request.Failing
import Turnstile.Proofs.Scheduler.Accounting
import Turnstile.Proofs.Scheduler.Attempt
import Turnstile.Proofs.Scheduler.Finalization
import Turnstile.Proofs.Scheduler.Leaving
import Turnstile.Scheduler.Settle

/-!
# Failures are contained

Whatever programs, cleaners, exchanges and hooks raise, and at whichever of their calls: no fault
leaves a move, and every request still comes to one end. A request that failed is answered and
finalized with four moves of its own at most, whatever else happens meanwhile; every move lets one
request leave and counts it once, or nobody; whoever has left stays away; and where nobody can move
any more, everybody who is still there waits for somebody else.
-/

namespace Turnstile

namespace Scheduler

open Request (callsOf)

variable {σ : Type} [Exchange σ] {s : Scheduler σ} {n : Nat} {r r' : Request σ}
  {failure : Failure}

/-- A move of the request itself. -/
def Move.isOwn (n : Nat) : Move σ → Bool
  | .advance k => k = n
  | _ => false

omit [Exchange σ] in
theorem Move.isOwn_iff {m : Move σ} : m.isOwn n = true ↔ m = .advance n := by
  cases m <;> simp [isOwn]

/-! ## From a failure to the end -/

/-- A request that failed comes one move closer to its end with each move of its own. -/
theorem Reachable.movesLeft_lt (h : s.Reachable) (hr : s.requests[n]? = some r)
    (hstage : r.stage.failure? = some failure ∨ r.stage = .finishing) :
    ∃ r', (s.perform (.advance n)).requests[n]? = some r' ∧
      r'.stage.movesLeft < r.stage.movesLeft := by
  have hnumbered := h.sound.numbered
  have hadvance : s.perform (.advance n) = s.advanceRequest r := by rw [perform, advance, hr]
  cases hkind : r.stage with
  | leaving exit =>
    have hput : (s.put { r with stage := .departed exit }).requests[n]? =
        some { r with stage := .departed exit } :=
      (hnumbered.getElem?_put hr (by rfl)).trans (if_pos rfl)
    obtain ⟨r', hr', hrestaged⟩ := restaged_release h.sound hr hkind hput
    rw [hadvance, advanceRequest, hkind]
    refine ⟨r', hr', ?_⟩
    rcases hrestaged with rfl | ⟨hqueued, -⟩
    · exact Nat.lt_succ_self _
    · cases hqueued
  | departed exit =>
    rw [hkind] at hstage
    cases exit with
    | fail failure' =>
      rw [hadvance, advanceRequest, hkind]
      exact ⟨_, (hnumbered.getElem?_put hr (by rfl)).trans (if_pos rfl), Nat.lt_succ_self _⟩
    | _ => simp [Stage.failure?] at hstage
  | failing failure' =>
    have hordinal := (Request.moved_fail s.hooks r failure').ordinal
    rw [hadvance, advanceRequest, hkind]
    exact ⟨_, (hnumbered.getElem?_put hr hordinal).trans (if_pos rfl), Nat.lt_succ_self _⟩
  | finishing =>
    obtain ⟨r', hr', hgone⟩ := exists_gone_of_finishing hnumbered hr hkind
    refine ⟨r', hr', ?_⟩
    rcases hgone with hgone | hgone <;> rw [hgone] <;> exact Nat.lt_succ_self _
  | _ =>
    rw [hkind] at hstage
    simp [Stage.failure?] at hstage

/-- At some moment of the run the request with the ordinal was about to be answered for the failure,
and had these metadata. -/
def Failed (s : Scheduler σ) (n : Nat) (failure : Failure) (moves : List (Move σ))
    (m : Metadata) : Prop :=
  ∃ earlier r, earlier <+: moves ∧ (s.performAll earlier).requests[n]? = some r ∧
    r.stage = .failing failure ∧ r.metadata = m

theorem Failed.append {failure : Failure} {data : Metadata} {moves : List (Move σ)}
    (h : s.Failed n failure moves data) (more : List (Move σ)) :
    s.Failed n failure (moves ++ more) data := by
  obtain ⟨earlier, r, hprefix, hmoment⟩ := h
  exact ⟨earlier, r, hprefix.trans (List.prefix_append _ _), hmoment⟩

/-- From its failure on, a request is answered and leaves, whatever the moves. -/
theorem Reachable.answering (h : s.Reachable) (hr : s.requests[n]? = some r)
    (hfailure : r.stage.failure? = some failure) (moves : List (Move σ)) :
    ∃ r' told, (s.performAll moves).requests[n]? = some r' ∧
      (s.performAll moves).history n = s.history n ++ told ∧
      Answered s.hooks n failure (s.Failed n failure moves) r'.stage told ∧
      r'.stage.movesLeft ≤ 4 - moves.countP (Move.isOwn n) := by
  induction moves using List.reverseRecOn with
  | nil =>
    refine ⟨r, [], hr, (List.append_nil _).symm, .pending hfailure, ?_⟩
    unfold Stage.movesLeft
    split <;> simp
  | append_singleton moves m ih =>
    obtain ⟨r₁, told₁, hr₁, hhistory₁, hanswered, hleft⟩ := ih
    have hreachable := h.performAll moves
    have hsound := hreachable.sound
    have hordinal : r₁.ordinal = n := hsound.numbered.ordinal hr₁
    obtain ⟨r₂, told₂, hr₂, hhistory₂, hstep⟩ := (hreachable.change m).step hsound hr₁
    rw [(h.frame_performAll moves).2] at hstep
    have hwas : r₁.stage = .failing failure → s.Failed n failure (moves ++ [m]) r₁.metadata :=
      fun hfailing ↦ ⟨moves, r₁, List.prefix_append _ _, hr₁, hfailing, rfl⟩
    have hlater : Answered s.hooks r₁.ordinal failure (s.Failed n failure (moves ++ [m]))
        r₁.stage told₁ := by
      rw [hordinal]
      exact Request.answered_mono hanswered fun _ hfailed ↦ hfailed.append [m]
    obtain ⟨hanswered₂, hle⟩ := hstep.answering (hsound.wellFormed hr₁) hwas hlater
    rw [hordinal] at hanswered₂
    have hlast : s.performAll (moves ++ [m]) = (s.performAll moves).perform m :=
      performAll_append s moves [m]
    refine ⟨r₂, told₁ ++ told₂, by rw [hlast]; exact hr₂, ?_, hanswered₂, ?_⟩
    · rw [hlast, hhistory₂, hhistory₁, List.append_assoc]
    · rw [List.countP_append, List.countP_singleton]
      cases hown : m.isOwn n with
      | false => exact Nat.le_trans hle hleft
      | true =>
        -- a move of its own takes it closer to its end, if it has not left yet
        obtain rfl := Move.isOwn_iff.mp hown
        have hlt (hstage : r₁.stage.failure? = some failure ∨ r₁.stage = .finishing) :
            r₂.stage.movesLeft < r₁.stage.movesLeft := by
          obtain ⟨r', hr', hlt⟩ := hreachable.movesLeft_lt hr₁ hstage
          cases hr'.symm.trans hr₂
          exact hlt
        have hcloser : r₂.stage.movesLeft ≤ r₁.stage.movesLeft - 1 := by
          rcases Request.answered_stage hanswered with ⟨hstage, -⟩ | hstage | ⟨ending, hstage⟩
          · exact Nat.le_pred_of_lt (hlt (.inl hstage))
          · exact Nat.le_pred_of_lt (hlt (.inr hstage))
          · rw [hstage] at hle ⊢
            exact hle
        rw [if_pos rfl]
        omega

/-- A request that failed leaves with its fourth move at the latest. -/
theorem isGone_of_movesLeft {hooks : Hooks} {was : Metadata → Prop} {stage : Stage}
    {told : List Happening} (h : Answered hooks n failure was stage told)
    (hleft : stage.movesLeft = 0) : stage.isGone = true := by
  rcases Request.answered_stage h with ⟨hstage, -⟩ | rfl | ⟨ending, rfl⟩
  · cases stage with
    | leaving _ | departed _ | failing _ => cases hleft
    | _ => cases hstage
  · cases hleft
  · rfl

/-- A program that breaks off, or whose code breaks off where an operation runs it, fails its
request. -/
theorem Reachable.programFails (h : s.Reachable) (hr : s.requests[n]? = some r)
    (hrunning : r.stage = .running) {p : Program} (hp : r.program = some p) {f : Fault}
    {w : InHand σ} (hraised : Attempt.proceed p.run
      ⟨s.pool, { r with program := none }, []⟩ = .error f w) :
    ∃ r', (s.perform (.advance n)).requests[n]? = some r' ∧
      r'.stage = .leaving (.fail (.program f)) := by
  have hordinal : r.turn.1.ordinal = r.ordinal := by
    rw [(Request.turned_turn (by rw [hp]; rfl)).frame]
  have hadvance : s.perform (.advance n) = s.absorb r.turn := by
    rw [perform, advance, hr]
    dsimp only
    rw [advanceRequest, hrunning]
  rw [hadvance]
  refine ⟨r.turn.1, (h.sound.numbered.getElem?_put hr hordinal).trans (if_pos rfl), ?_⟩
  obtain ⟨outcome, w', hproceed, hafter⟩ :=
    Attempt.proceed_eq (w := ⟨s.pool, { r with program := none }, []⟩) p.run
  rw [hraised] at hproceed
  cases outcome with
  | ok => cases hproceed
  | error f' =>
    cases hproceed
    have hstage := congrArg (fun w ↦ w.request.stage) hafter
    rw [Request.turn, hp]
    exact hstage

/-! ## Where nobody can move -/

/-- Where nobody can move, everybody has left or waits for somebody else: for the transport, for a
gate that is closed, or for a slot while all are taken. Whoever the transport forgot while it waited
is lost. -/
theorem Reachable.settled (h : s.Reachable) (hnext : s.next? = none)
    (hr : s.requests[n]? = some r) :
    r.stage.isGone = true ∨ r.isWaiting = true ∧ r.nextEvent? = none ∨
      r.stage = .gated ∧ n ∉ s.permits ∨ r.stage = .queued ∧ s.pool.live = s.pool.workers ∨
      r.stage = .lost := by
  have hp := h.placed
  have hordinal : r.ordinal = n := h.sound.numbered.ordinal hr
  unfold next? at hnext
  split at hnext
  · cases hnext
  next hfind =>
    have hstuck : s.canMove r = false :=
      Bool.eq_false_iff.mpr (Array.find?_eq_none.mp hfind r (Array.mem_of_getElem? hr))
    split at hnext
    · cases hnext
    · cases hnext
    next hdraining hjobs =>
      cases hstage : r.stage with
      | gone ending => exact .inl rfl
      | lost => simp
      | queued =>
        -- somebody waits, so the pool has no slot to give
        have hsize : 0 < s.pool.queue.size := by
          rw [hp.size, population, count, Array.countP_pos_iff]
          exact ⟨r, Array.mem_of_getElem? hr, by rw [hstage]; rfl⟩
        exact .inr (.inr (.inr (.inl ⟨rfl, (h.sound.balanced.conserving hsize).1⟩)))
      | ready =>
        have hmem := (hp.mem_jobs hr).mpr hstage
        rw [hjobs] at hmem
        cases hmem
      | drained =>
        have hmem := (hp.mem_draining hr).mpr hstage
        rw [hdraining] at hmem
        cases hmem
      | gated =>
        rw [canMove, hstage, hordinal] at hstuck
        exact .inr (.inr (.inl ⟨rfl, by simpa using hstuck⟩))
      | reading reader next =>
        rw [canMove, hstage] at hstuck
        exact .inr (.inl ⟨by rw [Request.isWaiting, hstage], by simpa using hstuck⟩)
      | writing writer =>
        rw [canMove, hstage] at hstuck
        exact .inr (.inl ⟨by rw [Request.isWaiting, hstage], by simpa using hstuck⟩)
      | _ => simp [canMove, hstage] at hstuck

/-! ## Failures are contained -/

/-- Failures of user code are contained in a state, whatever comes next. -/
structure Contained (s : Scheduler σ) : Prop where
  /-- No fault leaves a move: neither whoever asked for it nor a handler of last resort sees one. -/
  contains : ∀ m, s.attempt m = .ok (s.perform m)
  /-- A program that breaks off fails its request. -/
  programFails : ∀ {n : Nat} {r : Request σ} {p : Program} {f : Fault} {w : InHand σ},
    s.requests[n]? = some r → r.stage = .running → r.program = some p →
    Attempt.proceed p.run ⟨s.pool, { r with program := none }, []⟩ = .error f w →
    ∃ r', (s.perform (.advance n)).requests[n]? = some r' ∧
      r'.stage = .leaving (.fail (.program f))
  /-- A call of the transport that does not end well, while the request goes on, fails it. -/
  callFails : ∀ {n : Nat} {r r' : Request σ} {m : Move σ} {told : List Happening} {c : Call}
    {failure : Failure}, s.requests[n]? = some r → (s.perform m).requests[n]? = some r' →
    (s.perform m).history n = s.history n ++ told → c ∈ callsOf told →
    c.failure? = some failure → r'.stage = .failing failure
  /-- A request that failed is answered before it is declared over, and leaves with four moves of
  its own at most. -/
  answered : ∀ {n : Nat} {r : Request σ} {failure : Failure}, s.requests[n]? = some r →
    r.stage.failure? = some failure → ∀ later : List (Move σ),
    ∃ r' told, (s.performAll later).requests[n]? = some r' ∧
      (s.performAll later).history n = s.history n ++ told ∧
      Answered s.hooks n failure (s.Failed n failure later) r'.stage told ∧
      (4 ≤ later.countP (Move.isOwn n) → r'.stage.isGone = true)
  /-- With each move one request leaves and is counted once, or nobody does. -/
  leaves : ∀ m, Leaving s (s.perform m)
  /-- Whoever has left stays as it left, and nothing is told of it any more. -/
  stays : ∀ {n : Nat} {r : Request σ} {ending : Ending}, s.requests[n]? = some r →
    r.stage = .gone ending → ∀ later : List (Move σ),
    ∃ r', (s.performAll later).requests[n]? = some r' ∧ r'.stage = .gone ending ∧
      (s.performAll later).history n = s.history n
  /-- Where nobody can move, everybody has left, is lost, or waits for the transport, for a gate or
  for a slot while all are taken. -/
  settled : s.next? = none → ∀ {n : Nat} {r : Request σ}, s.requests[n]? = some r →
    r.stage.isGone = true ∨ r.isWaiting = true ∧ r.nextEvent? = none ∨
      r.stage = .gated ∧ n ∉ s.permits ∨ r.stage = .queued ∧ s.pool.live = s.pool.workers ∨
      r.stage = .lost

theorem Reachable.callFails (h : s.Reachable) {m : Move σ} {told : List Happening} {c : Call}
    (hr : s.requests[n]? = some r) (hr' : (s.perform m).requests[n]? = some r')
    (htold : (s.perform m).history n = s.history n ++ told) (hc : c ∈ callsOf told)
    (hfailure : c.failure? = some failure) : r'.stage = .failing failure := by
  obtain ⟨r'', told', hr'', hhistory, hstep⟩ := (h.change m).step h.sound hr
  cases hr'.symm.trans hr''
  obtain rfl := List.append_cancel_left (htold.symm.trans hhistory)
  exact hstep.failing (h.sound.wellFormed hr) hc hfailure

theorem Reachable.stays (h : s.Reachable) (hr : s.requests[n]? = some r) {ending : Ending}
    (hgone : r.stage = .gone ending) (later : List (Move σ)) :
    ∃ r', (s.performAll later).requests[n]? = some r' ∧ r'.stage = .gone ending ∧
      (s.performAll later).history n = s.history n := by
  induction later using List.reverseRecOn with
  | nil => exact ⟨r, hr, hgone, rfl⟩
  | append_singleton later m ih =>
    obtain ⟨r₁, hr₁, hgone₁, hhistory₁⟩ := ih
    have hreachable := h.performAll later
    obtain ⟨r₂, told, hr₂, hhistory₂, hstep⟩ := (hreachable.change m).step hreachable.sound hr₁
    obtain ⟨rfl, hsame, -⟩ := hstep.of_gone hgone₁
    rw [performAll_append]
    exact ⟨r₂, hr₂, hsame.trans hgone₁,
      hhistory₂.trans ((List.append_nil _).trans hhistory₁)⟩

theorem Reachable.contained (h : s.Reachable) : s.Contained where
  contains := s.attempt_eq
  programFails hr hrunning hp hraised := h.programFails hr hrunning hp hraised
  callFails hr hr' htold hc hfailure := h.callFails hr hr' htold hc hfailure
  answered hr hfailure later := by
    obtain ⟨r', told, hr', hhistory, hanswered, hleft⟩ := h.answering hr hfailure later
    exact ⟨r', told, hr', hhistory, hanswered, fun hown ↦
      isGone_of_movesLeft hanswered (by omega)⟩
  leaves := h.leaving
  stays hr hgone later := h.stays hr hgone later
  settled hnext _ _ hr := h.settled hnext hr

/-- After every run, failures are contained, and nobody is lost but those whom the transport
forgot. -/
theorem performAll_contained {config : Config} {hooks : Hooks} (h : start? config hooks = .ok s)
    (moves : List (Move σ)) :
    (s.performAll moves).Contained ∧
      ((∀ n, .forget n ∉ moves) → ∀ (n : Nat) (r : Request σ),
        (s.performAll moves).requests[n]? = some r → r.stage ≠ .lost) := by
  have hstart := reachable_of_start? h
  refine ⟨(hstart.performAll moves).contained, fun hmoves n r hr ↦ ?_⟩
  refine hstart.ne_lost ?_ moves hmoves hr
  obtain ⟨-, rfl⟩ := start?_eq_ok h
  intro n r hr
  simp [new] at hr

/-- Hooks that all break off. -/
def brokenHooks : Hooks where
  classify _ _ := .error .unlabelled
  format _ _ := .error .unlabelled
  sense _ := some .unlabelled
  kindName := (Hooks.plain .normal).kindName

/-- An exchange that takes no response past the usual way, and breaks off when it is declared
over. -/
def brokenExchange : Scripted :=
  { Scripted.new default with
    fallbackReplies := [.fault .unlabelled, .fault .unlabelled]
    completionFault := some .unlabelled }

/-- A request whose program breaks off gets the slot and runs. -/
def brokeOff : List (Move Scripted) :=
  .arrive brokenExchange (.raise .unlabelled) :: List.replicate 3 (.advance 0)

/-- Such a request leaves with its next four moves, although everything breaks off. -/
theorem performAll_contained_broken :
    ∃ s : Scheduler Scripted, start? (.sized 1) brokenHooks = .ok s ∧
      ∃ r told, (s.performAll (brokeOff ++ List.replicate 4 (.advance 0))).requests[0]? = some r ∧
        r.stage.isGone = true ∧
        Answered brokenHooks 0 (.program .unlabelled)
          ((s.performAll brokeOff).Failed 0 (.program .unlabelled) (List.replicate 4 (.advance 0)))
          r.stage told := by
  refine ⟨.new (.sized 1) brokenHooks, rfl, ?_⟩
  have hstart : start? (.sized 1) brokenHooks =
    .ok (.new (.sized 1) brokenHooks : Scheduler Scripted) := rfl
  have hbroke : ((Scheduler.new (.sized 1) brokenHooks).performAll brokeOff).requests[0]?.map
      Request.stage = some (.leaving (.fail (.program .unlabelled))) := by cbv
  obtain ⟨r, hr, hstage⟩ := Option.map_eq_some_iff.mp hbroke
  have hfailure : r.stage.failure? = some (.program .unlabelled) := by rw [hstage]; rfl
  obtain ⟨r', told, hr', -, hanswered, hgone⟩ := (performAll_contained hstart brokeOff).1.answered
    hr hfailure (List.replicate 4 (.advance 0))
  rw [((reachable_of_start? hstart).frame_performAll brokeOff).2] at hanswered
  rw [performAll_append]
  exact ⟨r', told, hr', hgone (by decide), hanswered⟩

end Scheduler

end Turnstile
