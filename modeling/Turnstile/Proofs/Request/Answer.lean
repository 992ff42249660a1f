import Turnstile.Proofs.Request.Meaning

/-!
# What a request is answered with

A request is answered in two ways: it leaves its worker or its reader with a response, which is then
started, or it fails and the sensor hears of the error. By what the request came to when it left,
the response is the one that its program meant, with the headers and the cookies that the program
had added; and the error is the failure that its program meant, unless a call on its exchange
failed.
-/

namespace Turnstile

open Meaning (Terms State Verdict)

/-- What a request is answered with. -/
inductive Answer where
  /-- A response with this status and these headers is started. -/
  | response (status : Nat) (headers : Pairs)
  /-- The sensor hears of an error. -/
  | error (message : String)
  deriving DecidableEq

/-- The answer is what a program comes to: its response with what it added, or its failure. A
failure of a call on the exchange is none of the program. -/
def Answer.Agrees (kindName : Kind → String) (o : Verdict × State) : Answer → Prop
  | .response status headers => ∃ response s, o = (.responds response, s) ∧
      status = response.status ∧ headers = (s.dossier.assemble response).1.headers
  | .error message => ∃ failure : Failure, message = failure.message kindName ∧
      (failure.isVerdict = true → ∃ s, o = (.fails failure, s))

/-- What was answered, if anything was. -/
def Happening.answer? : Happening → Option Answer
  | .call (.startResponse status headers _) => some (.response status headers)
  | .sensed (.connectionError _ message) _ => some (.error message)
  | _ => none

/-- The request has been answered, in order or with an error. -/
def Stage.isAnswered : Stage → Bool
  | .writing _ | .finishing | .gone .completed | .gone .broken => true
  | _ => false

namespace Request

variable {σ : Type} {t : Terms} {r r' start : Request σ} {hooks : Hooks} {config : Config}
  {input : Input} {inputs : List Input} {told more : List Happening}

/-- What was answered. -/
def answersOf (told : List Happening) : List Answer := told.filterMap Happening.answer?

@[simp] theorem answersOf_nil : answersOf [] = [] := rfl

@[simp] theorem answersOf_append (told more : List Happening) :
    answersOf (told ++ more) = answersOf told ++ answersOf more := List.filterMap_append

theorem answersOf_eq_nil (h : ∀ x ∈ told, x.answer? = none) : answersOf told = [] :=
  List.filterMap_eq_nil_iff.mpr h

@[simp] theorem answersOf_map_cleaner (events : List (Cleanup.Event String)) :
    answersOf (events.map .cleaner) = [] := by
  refine answersOf_eq_nil fun x hx ↦ ?_
  obtain ⟨event, -, rfl⟩ := List.mem_map.mp hx
  rfl

theorem answersOf_tellSwept (hooks : Hooks) (ordinal : Nat)
    (events : List (Cleanup.Event String)) :
    answersOf (events.flatMap (tellSwept hooks ordinal)) = [] := by
  induction events with
  | nil => rfl
  | cons event events ih =>
    rw [List.flatMap_cons, answersOf_append, ih]
    cases event <;> rfl

theorem answersOf_sweep (hooks : Hooks) (r : Request σ) :
    answersOf (sweep hooks r).2 = [] := answersOf_tellSwept _ _ _

theorem answersOf_react (next : Value → Program) (reaction : Reaction) :
    answersOf (r.react next reaction).2 = [] := by
  cases reaction with
  | resume v d => exact answersOf_map_cleaner _
  | enter p d => exact answersOf_map_cleaner _
  | fault f d => exact answersOf_map_cleaner _
  | respond response => rfl
  | readBody limit => rfl
  | act action => cases action <;> rfl

variable [Exchange σ]

theorem answersOf_turn (r : Request σ) : answersOf r.turn.2 = [] := by
  unfold turn
  split
  · rfl
  next p hp =>
    cases p.run with
    | finished v => cases v <;> rfl
    | faulted f => rfl
    | suspended op next => exact answersOf_react next _

theorem answersOf_writeAll {chunkSize : Nat} (pos : 0 < chunkSize) (unsent : Bytes) (exchange : σ) :
    answersOf ((ResponseWriter.writeAll chunkSize pos unsent exchange).calls.map .call) = [] := by
  fun_induction ResponseWriter.writeAll chunkSize pos unsent exchange with
  | case5 =>
    rename_i ih
    exact ih
  | _ => rfl

theorem answersOf_receive (r : Request σ) (event : IoEvent) :
    answersOf (r.receive event).2 = [] := by
  unfold receive
  split
  · rfl
  next writer hstage =>
    have hcalls : answersOf ((writer.advance event r.exchange).2.2.2.map .call) = [] := by
      cases event with
      | writable => exact answersOf_writeAll _ _ _
      | data chunk => rfl
      | allRead => rfl
      | error e => rfl
    unfold receiveWrite
    split <;> next h => rw [h] at hcalls; exact hcalls
  · rfl

theorem answersOf_fail (r : Request σ) (failure : Failure) :
    answersOf (Request.fail hooks r failure).2 = [.error (failure.message hooks.kindName)] := by
  unfold Request.fail sendError
  dsimp only
  split <;> rfl

theorem answersOf_finish (r : Request σ) : answersOf (Request.finish hooks r).2.2 = [] := by
  unfold Request.finish
  split
  · rfl
  · dsimp only
    rw [answersOf_append, answersOf_sweep]
    rfl

theorem answersOf_refuse (r : Request σ) (reason : Refusal) :
    answersOf (Request.refuse hooks r reason).2 = [] := by
  unfold Request.refuse
  split
  · rfl
  · dsimp only
    split
    · rfl
    · exact answersOf_sweep hooks _

omit [Exchange σ] in
theorem answersOf_drop (r : Request σ) : answersOf (Request.drop hooks r).2 = [] := by
  unfold Request.drop
  split
  · rfl
  · exact answersOf_sweep hooks _

theorem answersOf_depart (maxBodyBytes chunkSize : Nat) (exit : Exit) :
    answersOf (r.depart maxBodyBytes chunkSize exit).2 =
      match exit with
      | .respond response =>
        [.response response.status (r.dossier.assemble response).1.headers]
      | _ => [] := by
  cases exit with
  | respond response =>
    rw [depart, beginResponse]
    split
    next response' dossier hassemble =>
      dsimp only
      rw [hassemble]
      rw [Dossier.assemble] at hassemble
      cases hassemble
      split <;> rfl
  | readBody limit next =>
    rw [depart, beginRead]
    split
    split <;> rfl
  | fail failure => rfl

/-- A request is answered when it departs with a response and when it failed, and at no other
time. -/
theorem Step.answers (h : Step hooks config r input r' told) :
    answersOf told = [] ∨
      (∃ response, r.stage = .departed (.respond response) ∧
        answersOf told = [.response response.status (r.dossier.assemble response).1.headers]) ∨
      ∃ failure, r.stage = .failing failure ∧
        answersOf told = [.error (failure.message hooks.kindName)] := by
  cases h with
  | own h =>
    cases h with
    | turn hstage => exact .inl (answersOf_turn r)
    | @depart exit hstage =>
      have hdepart := answersOf_depart (r := r) config.maxBodyBytes config.writeChunkSize exit
      cases exit with
      | respond response => exact .inr (.inl ⟨response, hstage, hdepart⟩)
      | readBody limit next => exact .inl hdepart
      | fail failure => exact .inl hdepart
    | receive hevent => exact .inl (answersOf_receive _ _)
    | forget hwaiting => exact .inl (answersOf_drop _)
    | _ => exact .inl rfl
  | @fail failure h => exact .inr (.inr ⟨failure, h, answersOf_fail _ _⟩)
  | finish h => exact .inl (answersOf_finish _)
  | refuse h => exact .inl (answersOf_refuse _ _)
  | _ => exact .inl rfl

theorem answered_depart (maxBodyBytes chunkSize : Nat) {exit : Exit}
    (h : (r.depart maxBodyBytes chunkSize exit).1.stage.isAnswered = true) :
    answersOf (r.depart maxBodyBytes chunkSize exit).2 ≠ [] := by
  cases exit with
  | respond response =>
    rw [answersOf_depart]
    exact List.cons_ne_nil _ _
  | readBody limit next =>
    rw [depart, beginRead] at h
    split at h
    split at h <;> cases h
  | fail failure => cases h

theorem Step.answered (h : Step hooks config r input r' told) (hw : r.WellFormed)
    (hanswered : r'.stage.isAnswered = true) :
    r.stage.isAnswered = true ∨ answersOf told ≠ [] := by
  cases h with
  | stay => exact .inl hanswered
  | keepRank qos => exact .inl hanswered
  | rank qos h => exact .inl hanswered
  | pass h => cases hstage : r.stage <;> rw [hstage] at h <;> cases h <;> cases hanswered
  | own h =>
    cases h with
    | turn hstage =>
      have hturned := turned_turn (hw.program (by rw [hstage]; rfl))
      rw [hturned.stage (P := (·.isAnswered = false)) rfl rfl fun _ ↦ rfl] at hanswered
      cases hanswered
    | depart hstage => exact .inr (answered_depart _ _ hanswered)
    | receive hevent =>
      rcases nextEvent?_eq_some hevent with ⟨reader, next, box, rest, hstage, -, -, rfl⟩ |
        ⟨writer, box, rest, hstage, -, -, rfl⟩
      · rw [receive] at hanswered
        simp only [hstage, receiveRead] at hanswered
        split at hanswered <;> cases hanswered
      · exact .inl (by rw [hstage]; rfl)
    | deliver events direction => cases direction <;> exact .inl hanswered
    | wake hwake => exact .inl hanswered
    | forget hwaiting => cases hanswered
    | detach hwaiting => exact .inl hanswered
  | fail h =>
    right
    rw [answersOf_fail]
    exact List.cons_ne_nil _ _
  | finish h => exact .inl (by rw [h]; rfl)
  | refuse h => cases hanswered

theorem Run.answered (h : Run hooks config start inputs r told) (hw : start.WellFormed)
    (hstart : start.stage.isAnswered = false) :
    r.WellFormed ∧ (r.stage.isAnswered = true → answersOf told ≠ []) := by
  induction h with
  | start =>
    refine ⟨hw, fun h ↦ ?_⟩
    rw [hstart] at h
    cases h
  | step h s ih =>
    obtain ⟨hw', hold⟩ := ih
    refine ⟨(s.kept hw').2, fun hanswered ↦ ?_⟩
    rw [answersOf_append]
    rcases s.answered hw' hanswered with hbefore | hnow
    · exact List.append_ne_nil_of_left_ne_nil (hold hbefore) _
    · exact List.append_ne_nil_of_right_ne_nil _ hnow

variable [Exchange.Steady σ]

/-- Every answer in a run is what the request came to at the start. -/
theorem Run.answers (h : Run hooks config start inputs r told)
    (hmax : config.maxBodyBytes = t.maxBodyBytes) (hw : start.WellFormed) (ha : start.Attends t)
    (hinputs : ∀ qos, .ranking qos ∉ inputs) {answer : Answer} (hanswer : answer ∈ answersOf told)
    {later : List Input} {o : Verdict × State}
    (ho : start.comesTo? t [] (inputs ++ later) = some o) : answer.Agrees hooks.kindName o := by
  induction h generalizing later with
  | start => cases hanswer
  | @step inputs r r' input told more h s ih =>
    have hinputs' (qos : Qos) : .ranking qos ∉ inputs := fun hmem ↦
      hinputs qos (List.mem_append_left _ hmem)
    rw [answersOf_append, List.mem_append] at hanswer
    rw [List.append_assoc] at ho
    obtain ⟨-, -, hcomes⟩ := h.comesTo hmax hw ha hinputs'
    -- an answer told before the last step is one of the shorter run, where its input comes later
    rcases hanswer with hanswer | hanswer
    · exact ih hinputs' hanswer ho
    rcases s.answers with hnone | ⟨response, hstage, hsome⟩ | ⟨failure, hstage, hsome⟩
    · rw [hnone] at hanswer
      cases hanswer
    · rw [hsome, List.mem_singleton] at hanswer
      have hresponds : r.comesTo? t (notesOf told) (input :: later) =
          some (.responds response, ⟨r.dossier, deliveries (input :: later), notesOf told⟩) := by
        rw [comesTo?, hstage]
        rfl
      rw [hanswer]
      exact ⟨response, _, Option.some.inj (ho.symm.trans (hcomes _ _ hresponds)), rfl, rfl⟩
    · rw [hsome, List.mem_singleton] at hanswer
      rw [hanswer]
      refine ⟨failure, rfl, fun hverdict ↦ ?_⟩
      have hfails : r.comesTo? t (notesOf told) (input :: later) =
          some (.fails failure, ⟨r.dossier, deliveries (input :: later), notesOf told⟩) := by
        rw [comesTo?, hstage]
        exact if_pos hverdict
      exact ⟨_, Option.some.inj (ho.symm.trans (hcomes _ _ hfails))⟩

end Request

end Turnstile
