import Turnstile.Proofs.Request.Finalization
import Turnstile.Proofs.Scheduler.Course

/-!
# The class of a request

A request has the class that was given to it last. Three sources give classes: the classifier when
it arrives, its own program while it runs, and whoever moves it to another class while it waits.
`Scheduler.given?` follows a run and keeps the class given last. It looks at the moves and at what
the programs stop for, and never at the class a request has.
-/

namespace Turnstile

/-- The class that an operation gives, if it gives one. -/
def Operation.qos? : Operation → Option Qos
  | .setQos qos => some qos
  | _ => none

theorem Dossier.qos_answer (m : Metadata) (d : Dossier) (op : Operation) :
    ((d.answer m op).dossier?.getD d).qos = op.qos?.getD d.qos := by
  cases op with
  | invokeCleaner handle =>
    rw [answer]
    split <;> rfl
  | routePath matcher =>
    rw [answer]
    split <;> rfl
  | _ => rfl

namespace Request

variable {σ : Type} {hooks : Hooks} {r r' : Request σ}

/-- The class that a request gives itself with its next move: it runs, and its program stops for a
change of the class. -/
def setsQos? (r : Request σ) : Option Qos :=
  match r.stage, r.program with
  | .running, some p =>
    match p.run with
    | .suspended op _ => op.qos?
    | _ => none
  | _, _ => none

theorem setsQos?_of_ne_running (h : r.stage ≠ .running) : r.setsQos? = none := by
  unfold setsQos?
  split
  next hstage _ => exact absurd hstage h
  · rfl

theorem qos_drop (hooks : Hooks) (r : Request σ) :
    (Request.drop hooks r).1.dossier.qos = r.dossier.qos := by
  unfold Request.drop
  split <;> rfl

variable [Exchange σ]

theorem qos_turn (h : r.stage = .running) :
    r.turn.1.dossier.qos = r.setsQos?.getD r.dossier.qos := by
  unfold turn setsQos?
  rw [h]
  cases r.program with
  | none => rfl
  | some p =>
    dsimp only
    cases p.run with
    | finished value => cases value <;> rfl
    | faulted f => rfl
    | suspended op next =>
      exact (congrArg Dossier.qos (dossier_react _ next _)).trans (r.dossier.qos_answer _ op)

theorem qos_depart (maxBodyBytes chunkSize : Nat) (exit : Exit) :
    (r.depart maxBodyBytes chunkSize exit).1.dossier.qos = r.dossier.qos := by
  cases exit with
  | respond response =>
    unfold depart beginResponse
    dsimp only [Dossier.assemble]
    split <;> rfl
  | readBody limit next =>
    rw [depart, beginRead]
    split
    split <;> rfl
  | fail failure => rfl

theorem qos_finish (hooks : Hooks) (r : Request σ) :
    (Request.finish hooks r).2.1.dossier.qos = r.dossier.qos := by
  unfold Request.finish
  split <;> rfl

theorem qos_refuse (hooks : Hooks) (r : Request σ) (reason : Refusal) :
    (Request.refuse hooks r reason).1.dossier.qos = r.dossier.qos := by
  unfold Request.refuse
  split
  · rfl
  · dsimp only
    split <;> rfl

end Request

namespace Scheduler

variable {σ : Type} {s : Scheduler σ} {m : Move σ} {n k : Nat} {r r' : Request σ}

/-- The class of the request with an ordinal. -/
def class? (s : Scheduler σ) (n : Nat) : Option Qos := s.requests[n]?.map (·.dossier.qos)

theorem class?_of_requests {s' : Scheduler σ} (h : s'.requests = s.requests) :
    s'.class? n = s.class? n := by
  rw [class?, h, class?]

theorem class?_put (hs : s.Numbered) (hr : s.requests[k]? = some r) (ho : r'.ordinal = r.ordinal) :
    (s.put r').class? n = if k = n then some r'.dossier.qos else s.class? n := by
  rw [class?, hs.getElem?_put hr ho]
  split <;> rfl

theorem class?_put_same (hs : s.Numbered) (hr : s.requests[k]? = some r)
    (ho : r'.ordinal = r.ordinal) (hqos : r'.dossier.qos = r.dossier.qos) :
    (s.put r').class? n = s.class? n := by
  rw [class?_put hs hr ho]
  split
  next hk => rw [← hk, class?, hr, hqos, Option.map_some]
  · rfl

theorem class?_restageAll {change : Stage → Stage} (hs : s.Numbered)
    (idem : ∀ stage, change (change stage) = change stage) (ordinals : List Nat) :
    (s.restageAll change ordinals).class? n = s.class? n := by
  rw [class?, restageAll_getElem? hs idem, Option.map_map, class?]
  congr 1
  funext r
  dsimp only [Function.comp]
  split <;> rfl

variable [Exchange σ]

/-- The class that a move gives to the request with an ordinal, if it gives one: the classifier
classes a request that arrives, a program classes its own request, and others class those that
wait. -/
def givenBy? (s : Scheduler σ) (n : Nat) : Move σ → Option Qos
  | .arrive exchange _ =>
    if s.requests.size = n then
      some (s.hooks.classOf s.config.defaultQos n (Exchange.metadata exchange))
    else none
  | .advance k => if k = n then s.requests[n]?.bind Request.setsQos? else none
  | .reprioritize k qos => if k = n ∧ (s.reprioritize k qos).1 then some qos else none
  | _ => none

/-- The class given last to the request with an ordinal, by the moves of a run or before. -/
def given? (n : Nat) : Scheduler σ → Option Qos → List (Move σ) → Option Qos
  | _, before, [] => before
  | s, before, m :: moves => given? n (s.perform m) ((s.givenBy? n m).or before) moves

/-! ## A move gives a class or leaves the classes alone -/

omit [Exchange σ] in
theorem class?_enroll (hs : s.Numbered) (hr : s.requests[k]? = some r) (admission : Admission) :
    (s.enroll r admission).class? n = s.class? n := by
  unfold enroll
  split
  next pool hpool =>
    exact class?_put_same (s := { s with pool, jobs := s.jobs ++ [r.ordinal] })
      ⟨hs.ordinal, hs.journal⟩ hr rfl rfl
  next pool hpool =>
    exact class?_put_same (s := { s with pool }) ⟨hs.ordinal, hs.journal⟩ hr rfl rfl
  next reason hreason => exact class?_put_same hs hr rfl rfl

omit [Exchange σ] in
theorem class?_release (hs : s.Sound) (hr : s.requests[k]? = some r) {exit : Exit}
    (h : r.stage = .leaving exit) : (s.release r exit).class? n = s.class? n := by
  have hnumbered := (hs.depart hr h).numbered
  rw [release_eq hs.balanced]
  refine (class?_restageAll ?_ Request.promoted_idem _).trans ?_
  · exact ⟨hnumbered.ordinal, hnumbered.journal⟩
  · exact class?_put_same hs.numbered hr rfl rfl

theorem class?_advanceRequest (hs : s.Sound) (hr : s.requests[k]? = some r) :
    (s.advanceRequest r).class? n =
      if k = n then some (r.setsQos?.getD r.dossier.qos) else s.class? n := by
  -- but for a turn of its program, nothing that a request does changes its class
  have hsame : s.class? n = if k = n then some r.dossier.qos else s.class? n := by
    split
    next hk => rw [← hk, class?, hr, Option.map_some]
    · rfl
  have quiet (hstage : r.stage ≠ .running) {t : Scheduler σ} (ht : t.class? n = s.class? n) :
      t.class? n = if k = n then some (r.setsQos?.getD r.dossier.qos) else s.class? n := by
    rw [Request.setsQos?_of_ne_running hstage, Option.getD_none, ht]
    exact hsame
  have put (hstage : r.stage ≠ .running) (r' : Request σ) (ho : r'.ordinal = r.ordinal)
      (hqos : r'.dossier.qos = r.dossier.qos) {t : Scheduler σ}
      (ht : t.requests = (s.put r').requests) :
      t.class? n = if k = n then some (r.setsQos?.getD r.dossier.qos) else s.class? n :=
    quiet hstage ((class?_of_requests ht).trans (class?_put_same hs.numbered hr ho hqos))
  unfold advanceRequest
  split
  next h => exact quiet (by simp [h]) (class?_enroll hs.numbered hr _)
  next h => exact quiet (by simp [h]) (class?_enroll hs.numbered hr _)
  next h =>
    unfold pickUp
    split
    · split
      · exact put (by simp [h]) { r with stage := .running } rfl rfl rfl
      · exact quiet (by simp [h]) rfl
    · exact quiet (by simp [h]) rfl
  next h =>
    have hprogram := (hs.wellFormed hr).program (by rw [h]; rfl)
    have hordinal : r.turn.1.ordinal = r.ordinal := by rw [(Request.turned_turn hprogram).frame]
    refine (class?_put hs.numbered hr hordinal).trans ?_
    rw [Request.qos_turn h]
  next h =>
    split
    · exact put (by simp [h]) { r with stage := .running } rfl rfl rfl
    · exact quiet (by simp [h]) rfl
  next exit h => exact quiet (by simp [h]) (class?_release hs hr h)
  next exit h =>
    have hexit := (hs.wellFormed hr).ne_noProgram (.inr h)
    exact put (by simp [h]) _ (Request.moved_depart _ _ hexit).ordinal
      (Request.qos_depart _ _ exit) rfl
  next h =>
    split
    next event r' hevent =>
      exact put (by simp [h]) _ (Request.moved_receive hevent).2.2.ordinal
        (congrArg Dossier.qos (Request.dossier_receive hevent)) rfl
    · exact quiet (by simp [h]) rfl
  next h =>
    split
    next event r' hevent =>
      exact put (by simp [h]) _ (Request.moved_receive hevent).2.2.ordinal
        (congrArg Dossier.qos (Request.dossier_receive hevent)) rfl
    · exact quiet (by simp [h]) rfl
  next failure h =>
    exact put (by simp [h]) _ (Request.moved_fail s.hooks r failure).ordinal
      (congrArg Dossier.qos (Request.dossier_fail s.hooks r failure)) rfl
  next h =>
    exact put (by simp [h])
      { (Request.finish s.hooks r).2.1 with
        stage := .gone (.ofFinish (Request.finish s.hooks r).1) }
      (Request.finish_ordinal s.hooks r) (Request.qos_finish s.hooks r) rfl
  next reason admitted h =>
    exact put (by simp [h])
      { (Request.refuse s.hooks r reason).1 with stage := .gone (.refused reason) }
      (Request.refuse_ordinal s.hooks r reason) (Request.qos_refuse s.hooks r reason) rfl
  all_goals
    next h => exact quiet (by simp [h]) rfl

omit [Exchange σ] in
theorem class?_reprioritize (hs : s.Numbered) (qos : Qos) :
    (s.reprioritize k qos).2.class? n =
      if k = n ∧ (s.reprioritize k qos).1 = true then some qos else s.class? n := by
  cases hmoved : s.reprioritize k qos with
  | mk moved t =>
    rw [reprioritize] at hmoved
    split at hmoved
    next pool r hpool hr =>
      cases hmoved
      have hput : ({ s with pool }.put { r with dossier := { r.dossier with qos } }).class? n =
          if k = n then some qos else { s with pool }.class? n :=
        class?_put ⟨hs.ordinal, hs.journal⟩ hr rfl
      simp only [and_true]
      exact hput
    · cases hmoved
      simp

/-- A move gives a request the class that it gives, and leaves all other classes as they are. -/
theorem Reachable.class?_perform (h : s.Reachable) (m : Move σ) :
    (s.perform m).class? n = (s.givenBy? n m).or (s.class? n) := by
  have hs := h.sound
  cases m with
  | arrive exchange program =>
    rw [perform, arrive, givenBy?, class?, Array.getElem?_push]
    simp only [@eq_comm _ n]
    split
    next hn => rw [← hn]; rfl
    · rfl
  | advance k =>
    rw [perform, advance, givenBy?]
    split
    next r hr =>
      rw [class?_advanceRequest hs hr]
      split
      next hk =>
        rw [← hk, class?, hr]
        cases hqos : r.setsQos? <;> simp [hqos]
      · rfl
    next hr =>
      split
      next hk => rw [← hk, hr]; rfl
      · rfl
  | deliver k direction events =>
    rw [perform, deliver]
    split
    next r hr => cases direction <;> exact class?_put_same hs.numbered hr rfl rfl
    · rfl
  | wake k =>
    rw [perform, wake]
    split
    next r hr =>
      split
      · exact class?_put_same hs.numbered hr rfl rfl
      · rfl
    · rfl
  | forget k =>
    rw [perform, forget]
    split
    next r hr =>
      have hordinal : (Request.drop s.hooks { r with reads := none, writes := none }).1.ordinal =
          r.ordinal := by rw [Request.drop_frame]
      have hqos := Request.qos_drop s.hooks { r with reads := none, writes := none }
      unfold forgetRequest
      split
      · exact class?_put_same hs.numbered hr hordinal hqos
      · exact class?_put_same hs.numbered hr hordinal hqos
      · exact class?_put_same hs.numbered hr rfl rfl
    · rfl
  | openGate k => rfl
  | reprioritize k qos =>
    rw [perform, givenBy?, class?_reprioritize hs.numbered]
    split <;> rfl
  | stop =>
    rw [perform, stop_eq]
    refine (class?_restageAll ?_ Request.dismissed_idem _).trans rfl
    exact ⟨hs.numbered.ordinal, hs.numbered.journal⟩
  | drain =>
    rw [perform, drain]
    split
    next k draining hd =>
      split
      next r hr =>
        exact class?_put_same (s := s) hs.numbered hr (Request.refuse_ordinal s.hooks r .shutdown)
          (Request.qos_refuse s.hooks r .shutdown)
      · rfl
    · rfl

/-- After every run a request has the class that was given to it last. -/
theorem Reachable.class?_performAll (h : s.Reachable) (moves : List (Move σ)) :
    (s.performAll moves).class? n = given? n s (s.class? n) moves := by
  induction moves generalizing s with
  | nil => rfl
  | cons m moves ih =>
    rw [given?, ← h.class?_perform]
    exact ih (h.move m)

end Scheduler

end Turnstile
