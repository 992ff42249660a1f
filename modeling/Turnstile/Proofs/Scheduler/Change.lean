import Turnstile.Proofs.Scheduler.Places
import Turnstile.Proofs.Scheduler.Sound

/-!
# What a move changes

Every move of a scheduler is one of a few changes to its state, listed in `Scheduler.Change` with
all that guards them. Most moves are about one request: `Scheduler.Shift` says what becomes of it
and what it does to the pool and to the lists. `change_perform` is the only place where
`Scheduler.perform` is opened; what every run keeps is proved by cases on the change.
-/

namespace Turnstile

/-- Where a request is that asks for a slot. -/
def Admission.stage : Admission → Stage
  | .fresh => .arriving
  | .resumed => .returning

namespace Scheduler

variable {σ : Type} [Exchange σ] {s s' : Scheduler σ} {m : Move σ} {n : Nat} {r : Request σ}

/-- What a move brings from outside to the request `r` with the ordinal `n`. -/
def Move.input (n : Nat) (r : Request σ) : Move σ → Request.Input
  | .advance k => if k = n then r.nextInput else .nothing
  | .deliver k direction events => if k = n then .report direction events else .nothing
  | .reprioritize k qos => if k = n then .ranking qos else .nothing
  | .forget k => if k = n then .forgotten else .nothing
  | .arrive _ _ | .wake _ | .openGate _ | .stop | .drain => .nothing

/-- What a move of one request does to it, what it tells, and what becomes of the pool, the jobs
and those to be refused after the stop. -/
inductive Shift (s : Scheduler σ) (r : Request σ) :
    Request.Input → Request σ → List Happening → Pool → List Nat → List Nat → Prop where
  /-- The request makes a move of its own. -/
  | own {input : Request.Input} {r' : Request σ} {told : List Happening}
    (h : Request.Own s.hooks s.config r input r' told) :
    Shift s r input r' told s.pool s.jobs s.draining
  /-- It passes a gate. -/
  | passGate (h : r.stage = .gated) :
    Shift s r .nothing { r with stage := .running } [] s.pool s.jobs s.draining
  /-- It failed and is answered with an error. -/
  | fail {failure : Failure} (h : r.stage = .failing failure) :
    Shift s r .nothing (Request.fail s.hooks r failure).1 (Request.fail s.hooks r failure).2
      s.pool.countFailure s.jobs s.draining
  /-- It asks for a slot and gets one. -/
  | place {admission : Admission} {pool : Pool} (h : r.stage = admission.stage)
    (hp : s.pool.enroll r.rank admission = .ok (.live, pool)) :
    Shift s r .nothing { r with stage := .ready } [] pool (s.jobs ++ [r.ordinal]) s.draining
  /-- It asks for a slot and has to wait. -/
  | queue {admission : Admission} {pool : Pool} (h : r.stage = admission.stage)
    (hp : s.pool.enroll r.rank admission = .ok (.queued, pool)) :
    Shift s r .nothing { r with stage := .queued } [] pool s.jobs s.draining
  /-- It asks for a slot and is to be refused. -/
  | decline {admission : Admission} {reason : Refusal} (h : r.stage = admission.stage)
    (hp : s.pool.enroll r.rank admission = .error reason) :
    Shift s r .nothing { r with stage := .refusing reason (admission = .resumed) } []
      s.pool s.jobs s.draining
  /-- A worker picks it up. -/
  | pickUp {jobs : List Nat} (h : r.stage = .ready) (hj : s.jobs = r.ordinal :: jobs) :
    Shift s r .nothing { r with stage := .running } [] s.pool jobs s.draining
  /-- It has been answered and leaves. -/
  | finish (h : r.stage = .finishing) :
    Shift s r .nothing
      { (Request.finish s.hooks r).2.1 with
        stage := .gone (.ofFinish (Request.finish s.hooks r).1) }
      (Request.finish s.hooks r).2.2
      ((Request.finish s.hooks r).1.elim s.pool s.pool.retire) s.jobs s.draining
  /-- It is refused. -/
  | refuse {reason : Refusal} {admitted : Bool} (h : r.stage = .refusing reason admitted) :
    Shift s r .nothing
      { (Request.refuse s.hooks r reason).1 with stage := .gone (.refused reason) }
      (Request.refuse s.hooks r reason).2 (s.pool.refuse admitted) s.jobs s.draining
  /-- It was taken out of the queue and is refused. -/
  | drain {draining : List Nat} (h : r.stage = .drained)
    (hd : s.draining = r.ordinal :: draining) :
    Shift s r .nothing
      { (Request.refuse s.hooks r .shutdown).1 with stage := .gone (.refused .shutdown) }
      (Request.refuse s.hooks r .shutdown).2 (s.pool.refuse true) s.jobs draining
  /-- It waits and takes another class. -/
  | rank {pool : Pool} {qos : Qos} (h : r.stage = .queued)
    (hp : s.pool.reprioritize? r.ordinal qos = some pool) :
    Shift s r (.ranking qos) { r with dossier := { r.dossier with qos } } [] pool
      s.jobs s.draining

/-- The state after a move, by what the move comes to. -/
inductive Change (s : Scheduler σ) (m : Move σ) : Scheduler σ → Prop where
  /-- Nobody moves. -/
  | stay (permits : List Nat)
    (quiet : ∀ (n : Nat) (r : Request σ), s.requests[n]? = some r →
      m.input n r = .nothing ∨ ∃ qos, m.input n r = .ranking qos) :
    Change s m { s with permits }
  /-- A request arrives. -/
  | arrive {exchange : σ} {program : Program} (hm : m = .arrive exchange program) :
    Change s m (s.arrive exchange program)
  /-- One request moves. -/
  | shift {n : Nat} {r r' : Request σ} {told : List Happening} {pool : Pool}
    {jobs draining : List Nat} (permits : List Nat) (hr : s.requests[n]? = some r)
    (others : ∀ (k : Nat) (r' : Request σ), k ≠ n → m.input k r' = .nothing)
    (h : Shift s r (m.input n r) r' told pool jobs draining) :
    Change s m ({ s with pool, jobs, draining, permits }.absorb (r', told))
  /-- A request gives its slot back. -/
  | release {n : Nat} {r : Request σ} {exit : Exit} (hm : m = .advance n)
    (hr : s.requests[n]? = some r) (h : r.stage = .leaving exit) :
    Change s m (s.release r exit)
  /-- The scheduler is stopped. -/
  | stop (hm : m = .stop) : Change s m s.stop

/-! ## Every move is a change -/

theorem Change.none (quiet : ∀ (n : Nat) (r : Request σ), s.requests[n]? = some r →
    m.input n r = .nothing ∨ ∃ qos, m.input n r = .ranking qos) : Change s m s :=
  .stay s.permits quiet

theorem Change.quiet (hr : s.requests[n]? = some r) (hself : m.input n r = .nothing)
    (others : ∀ (k : Nat) (r' : Request σ), k ≠ n → m.input k r' = .nothing) : Change s m s :=
  .none fun k r' hk ↦ by
    left
    by_cases hkn : k = n
    · subst hkn
      rw [hr] at hk
      cases hk
      exact hself
    · exact others k r' hkn

theorem Change.missing (hr : s.requests[n]? = Option.none)
    (others : ∀ (k : Nat) (r' : Request σ), k ≠ n → m.input k r' = .nothing) : Change s m s :=
  .none fun k r' hk ↦ by
    left
    refine others k r' fun hkn ↦ ?_
    rw [hkn, hr] at hk
    cases hk

theorem nextInput_eq_nothing (h : ∀ exit, r.stage ≠ .departed exit) : r.nextInput = .nothing := by
  unfold Request.nextInput
  split
  next hstage => exact absurd hstage (h _)
  · rfl

theorem input_advance_self (n : Nat) (r : Request σ) :
    Move.input n r (.advance n : Move σ) = r.nextInput := if_pos rfl

theorem input_advance_other {k n : Nat} (r : Request σ) (h : k ≠ n) :
    Move.input k r (.advance n : Move σ) = .nothing := if_neg (Ne.symm h)

theorem change_enroll (hr : s.requests[n]? = some r) (admission : Admission)
    (h : r.stage = admission.stage) : Change s (.advance n) (s.enroll r admission) := by
  have hinput : Move.input n r (.advance n : Move σ) = .nothing := by
    rw [input_advance_self]
    exact nextInput_eq_nothing (by cases admission <;> simp [h, Admission.stage])
  unfold enroll
  split
  next pool hpool =>
    exact .shift s.permits hr (fun k r' hk ↦ input_advance_other r' hk)
      (by rw [hinput]; exact .place h hpool)
  next pool hpool =>
    exact .shift s.permits hr (fun k r' hk ↦ input_advance_other r' hk)
      (by rw [hinput]; exact .queue h hpool)
  next reason hreason =>
    exact .shift s.permits hr (fun k r' hk ↦ input_advance_other r' hk)
      (by rw [hinput]; exact .decline h hreason)

theorem change_advanceRequest (hs : s.Numbered) (hr : s.requests[n]? = some r) :
    Change s (.advance n) (s.advanceRequest r) := by
  have hn : r.ordinal = n := hs.ordinal hr
  have others (k : Nat) (r' : Request σ) (hk : k ≠ n) :
      Move.input k r' (.advance n : Move σ) = .nothing := input_advance_other r' hk
  have quiet (h : ∀ exit, r.stage ≠ .departed exit) : Change s (.advance n) s :=
    .quiet hr (by rw [input_advance_self]; exact nextInput_eq_nothing h) others
  have shift {r' : Request σ} {told : List Happening} {pool : Pool} {jobs draining : List Nat}
      (permits : List Nat) (hinput : r.nextInput = .nothing)
      (h : Shift s r .nothing r' told pool jobs draining) :
      Change s (.advance n) ({ s with pool, jobs, draining, permits }.absorb (r', told)) :=
    .shift permits hr others (by rw [input_advance_self, hinput]; exact h)
  unfold advanceRequest
  split
  next h => exact change_enroll hr .fresh h
  next h => exact change_enroll hr .resumed h
  next h =>
    have hinput := nextInput_eq_nothing (r := r) (by simp [h])
    unfold pickUp
    split
    next first jobs hj =>
      split
      next hfirst => exact shift s.permits hinput (.pickUp h (by rw [hj, hfirst]))
      · exact quiet (by simp [h])
    · exact quiet (by simp [h])
  next h => exact shift s.permits (nextInput_eq_nothing (by simp [h])) (.own (.turn h))
  next h =>
    split
    · exact shift (s.permits.erase r.ordinal) (nextInput_eq_nothing (by simp [h])) (.passGate h)
    · exact quiet (by simp [h])
  next exit h => exact .release rfl hr h
  next exit h =>
    exact .shift s.permits hr others (by rw [input_advance_self]; exact .own (.depart h))
  next h =>
    split
    next event r' hevent =>
      exact shift s.permits (nextInput_eq_nothing (by simp [h])) (.own (.receive hevent))
    · exact quiet (by simp [h])
  next h =>
    split
    next event r' hevent =>
      exact shift s.permits (nextInput_eq_nothing (by simp [h])) (.own (.receive hevent))
    · exact quiet (by simp [h])
  next failure h => exact shift s.permits (nextInput_eq_nothing (by simp [h])) (.fail h)
  next h => exact shift s.permits (nextInput_eq_nothing (by simp [h])) (.finish h)
  next reason admitted h =>
    exact shift s.permits (nextInput_eq_nothing (by simp [h])) (.refuse h)
  all_goals
    next h => exact quiet (by simp [h])

theorem change_forgetRequest (hr : s.requests[n]? = some r) :
    Change s (.forget n) (s.forgetRequest r) := by
  have others (k : Nat) (r' : Request σ) (hk : k ≠ n) :
      Move.input k r' (.forget n : Move σ) = .nothing := if_neg (Ne.symm hk)
  have hself : Move.input n r (.forget n : Move σ) = .forgotten := if_pos rfl
  have forget (hwaiting : r.isWaiting = true) :=
    Change.shift s.permits hr others (by rw [hself]; exact .own (.forget hwaiting))
  unfold forgetRequest
  split
  next h => exact forget (by simp [Request.isWaiting, h])
  next h => exact forget (by simp [Request.isWaiting, h])
  next h₁ h₂ =>
    have hwaiting : r.isWaiting = false := by
      unfold Request.isWaiting
      split
      next h => exact absurd h (h₁ _ _)
      next h => exact absurd h (h₂ _)
      · rfl
    have h : Shift s r (Move.input n r (.forget n)) { r with reads := none, writes := none } []
        s.pool s.jobs s.draining := by
      rw [hself]
      exact .own (.detach hwaiting)
    exact .shift s.permits hr others h

/-- Every move is a change. -/
theorem change_perform (hs : s.Numbered) (hp : s.Placed) (m : Move σ) :
    Change s m (s.perform m) := by
  cases m with
  | arrive exchange program => exact .arrive rfl
  | advance n =>
    rw [perform, advance]
    split
    next r hr => exact change_advanceRequest hs hr
    next hr => exact .missing hr fun k r' hk ↦ input_advance_other r' hk
  | deliver n direction events =>
    have others (k : Nat) (r' : Request σ) (hk : k ≠ n) :
        Move.input k r' (.deliver n direction events) = .nothing := if_neg (Ne.symm hk)
    rw [perform, deliver]
    split
    next r hr =>
      exact .shift s.permits hr others
        (.own (by rw [Move.input, if_pos rfl]; exact .deliver events direction))
    next hr => exact .missing hr others
  | wake n =>
    rw [perform, wake]
    split
    next r hr =>
      split
      next events exchange hwake =>
        have h : Shift s r (Move.input n r (.wake n)) ({ r with exchange }.deliver events .write)
            [] s.pool s.jobs s.draining := .own (.wake hwake)
        exact .shift s.permits hr (fun _ _ _ ↦ rfl) h
      · exact .none fun _ _ _ ↦ .inl rfl
    · exact .none fun _ _ _ ↦ .inl rfl
  | forget n =>
    rw [perform, forget]
    split
    next r hr => exact change_forgetRequest hr
    next hr => exact .missing hr fun _ _ hk ↦ if_neg (Ne.symm hk)
  | openGate n => exact .stay (s.permits ++ [n]) fun _ _ _ ↦ .inl rfl
  | reprioritize n qos =>
    have others (k : Nat) (r' : Request σ) (hk : k ≠ n) :
        Move.input k r' (.reprioritize n qos) = .nothing := if_neg (Ne.symm hk)
    rw [perform, reprioritize]
    split
    next pool r hpool hr =>
      -- the index names those who wait and nobody else, so the request waits
      obtain ⟨⟨item, queue⟩, hq, -⟩ := Option.map_eq_some_iff.mp hpool
      obtain ⟨old, hold, -, -⟩ := Queue.reprioritize?_eq_some hq
      obtain ⟨r', hr', hstage, -⟩ := hp.queued hold
      rw [hr] at hr'
      cases hr'
      have h : Shift s r (Move.input n r (.reprioritize n qos))
          { r with dossier := { r.dossier with qos } } [] pool s.jobs s.draining := by
        rw [Move.input, if_pos rfl]
        exact .rank hstage (by rw [hs.ordinal hr]; exact hpool)
      exact .shift s.permits hr others h
    · refine .none fun k r' _ ↦ ?_
      rw [Move.input]
      split
      · exact .inr ⟨qos, rfl⟩
      · exact .inl rfl
  | stop => exact .stop rfl
  | drain =>
    rw [perform, drain]
    split
    next n draining hd =>
      -- the list names those taken out of the queue and nobody else, so the request is one of them
      have hplace := (hp.draining n).mp (by rw [hd]; exact List.mem_cons_self)
      obtain ⟨r, hr, hdrained⟩ := Option.map_eq_some_iff.mp hplace
      rw [hr]
      refine .shift s.permits hr (fun _ _ _ ↦ rfl) (.drain ?_ (by rw [hd, hs.ordinal hr]))
      unfold Stage.place at hdrained
      split at hdrained <;> first | assumption | cases hdrained
    · exact .none fun _ _ _ ↦ .inl rfl

end Scheduler

end Turnstile
