import Turnstile.Proofs.Request.Answer
import Turnstile.Proofs.Request.Protocol

/-!
# What a request is counted for

What is told of a request says how it left, since its exchange is ended once and by the way it
leaves, and whether it failed, since a failure is reported once, with the move that takes the
request from its failure to its end. So whoever counts those who left and those who failed counts
what the journal says of each.
-/

namespace Turnstile

/-- How a request leaves by a call that ends its exchange. -/
def Call.ending? : Call → Option Ending
  | .complete fault? => some (.ofFinish (some fault?.isNone))
  | .reject reason _ => some (.refused reason)
  | _ => none

namespace Stage

/-- How the request has left, if it has. -/
def ending? : Stage → Option Ending
  | .gone ending => some ending
  | _ => none

theorem ending?_eq_some_iff {stage : Stage} {ending : Ending} :
    stage.ending? = some ending ↔ stage = .gone ending := by
  cases stage <;> simp [ending?]

/-- The request failed and is about to be answered with an error. -/
def isFailing : Stage → Bool
  | .failing _ => true
  | _ => false

theorem isFailing_iff {stage : Stage} :
    stage.isFailing = true ↔ ∃ failure, stage = .failing failure := by
  cases stage <;> simp [isFailing]

/-- The request has been answered, and its exchange is about to be declared over or was. -/
def isConcluding : Stage → Bool
  | .finishing | .gone .completed | .gone .broken => true
  | _ => false

end Stage

/-- The answer is an error. -/
def Answer.isError : Answer → Bool
  | .error _ => true
  | _ => false

namespace Request

variable {σ : Type} {hooks : Hooks} {config : Config} {r r' start : Request σ} {input : Input}
  {inputs : List Input} {told more : List Happening}

/-! ## How a request leaves -/

/-- How the exchange was ended, by what was told. -/
def endingsOf (told : List Happening) : List Ending := (callsOf told).filterMap Call.ending?

@[simp] theorem endingsOf_append (told more : List Happening) :
    endingsOf (told ++ more) = endingsOf told ++ endingsOf more := by
  rw [endingsOf, callsOf_append, List.filterMap_append, endingsOf, endingsOf]

theorem Quiet.endingsOf_eq_nil (h : Quiet told) : endingsOf told = [] := by
  refine List.filterMap_eq_nil_iff.mpr ?_
  intro c hc
  obtain ⟨x, hx, hcall⟩ := List.mem_filterMap.mp hc
  have hquiet := (h x hx).1
  cases x with
  | call c' =>
    cases hcall
    cases c <;> first | rfl | cases hquiet
  | _ => cases hcall

variable [Exchange σ]

theorem Step.endings (h : Step hooks config r input r' more) (hw : r.WellFormed) :
    r.stage.ending?.toList ++ endingsOf more = r'.stage.ending?.toList := by
  -- whoever has left stays as it left, and nothing is told of it
  by_cases hgone : ∃ ending, r.stage = .gone ending
  · obtain ⟨ending, hgone⟩ := hgone
    obtain ⟨rfl, hsame, -⟩ := h.of_gone hgone
    rw [hsame]
    exact List.append_nil _
  have hhere {stage : Stage} (hstage : ∀ ending, stage = .gone ending → r.stage = .gone ending) :
      stage.ending? = none := by
    refine Option.eq_none_iff_forall_ne_some.mpr ?_
    intro ending hending
    exact hgone ⟨ending, hstage ending (Stage.ending?_eq_some_iff.mp hending)⟩
  rw [hhere fun _ ↦ id]
  cases h with
  | stay => rw [hhere fun _ ↦ id]; rfl
  | keepRank qos => rw [hhere fun _ ↦ id]; rfl
  | rank qos h => rw [h]; rfl
  | pass h =>
    generalize r.stage = before at h
    cases h <;> rfl
  | own h =>
    have hquiet : endingsOf more = [] := by
      cases h with
      | turn hstage => exact (goesOn_turn r).quiet.endingsOf_eq_nil
      | depart hstage => exact (goesOn_depart _ _ _).quiet.endingsOf_eq_nil
      | receive hevent => exact (goesOn_receive hevent).quiet.endingsOf_eq_nil
      | forget hwaiting => rw [endingsOf, callsOf_drop]; rfl
      | _ => rfl
    rw [hquiet, hhere fun ending hending ↦ h.stage_of_gone hw hending]
    rfl
  | fail h => rw [(goesOn_fail _).quiet.endingsOf_eq_nil]; rfl
  | finish h =>
    rw [finish_of_open (hw.closed (by rw [h]; rfl)), endingsOf, callsOf_append, callsOf_sweep]
    rfl
  | refuse h =>
    rw [endingsOf, callsOf_refuse (hw.closed_of_refused h)]
    rfl

/-- The exchange of a request is ended exactly as the request leaves, and once. -/
theorem Run.endings (h : Run hooks config start inputs r told) (hw : start.WellFormed)
    (hhere : start.stage.ending? = none) :
    r.WellFormed ∧ endingsOf told = r.stage.ending?.toList := by
  induction h with
  | start =>
    rw [hhere]
    exact ⟨hw, rfl⟩
  | step h s ih =>
    obtain ⟨hw', hold⟩ := ih
    refine ⟨(s.kept hw').2, ?_⟩
    rw [endingsOf_append, hold]
    exact s.endings hw'

/-! ## How often a failure is reported -/

/-- How often the failure of a request was reported. -/
def failures (told : List Happening) : Nat := (answersOf told).countP Answer.isError

omit [Exchange σ] in
@[simp] theorem failures_append (told more : List Happening) :
    failures (told ++ more) = failures told + failures more := by
  rw [failures, answersOf_append, List.countP_append, failures, failures]

theorem isConcluding_ofFinish (completed? : Option Bool) :
    (Stage.gone (.ofFinish completed?)).isConcluding = true := by
  rcases completed? with _ | (_ | _) <;> rfl

omit [Exchange σ] in
theorem failures_of_nil (h : answersOf told = []) : failures told = 0 := by rw [failures, h]; rfl

theorem failures_depart (maxBodyBytes chunkSize : Nat) (exit : Exit) :
    failures (r.depart maxBodyBytes chunkSize exit).2 = 0 := by
  rw [failures, answersOf_depart]
  split <;> rfl

theorem Own.failures (h : Own hooks config r input r' told) :
    Request.failures told = 0 ∧ (r.stage.isFailing = true → r'.stage.isFailing = true) ∧
      (r.stage.isConcluding = true → r'.stage.isConcluding = true) := by
  -- most moves start from a stage that is neither
  have hneither {stage : Stage} (hstage : r.stage = stage) (hfailing : stage.isFailing = false)
      (hconcluding : stage.isConcluding = false) :
      (r.stage.isFailing = true → r'.stage.isFailing = true) ∧
        (r.stage.isConcluding = true → r'.stage.isConcluding = true) := by
    rw [hstage, hfailing, hconcluding]
    exact ⟨nofun, nofun⟩
  cases h with
  | turn hstage => exact ⟨failures_of_nil (answersOf_turn r), hneither hstage rfl rfl⟩
  | depart hstage => exact ⟨failures_depart _ _ _, hneither hstage rfl rfl⟩
  | receive hevent =>
    refine ⟨failures_of_nil (answersOf_receive _ _), ?_⟩
    rcases nextEvent?_eq_some hevent with ⟨reader, next, box, rest, hstage, -⟩ |
      ⟨writer, box, rest, hstage, -⟩
    · exact hneither hstage rfl rfl
    · exact hneither hstage rfl rfl
  | deliver events direction => cases direction <;> exact ⟨rfl, id, id⟩
  | wake hwake => exact ⟨rfl, id, id⟩
  | forget hwaiting =>
    refine ⟨failures_of_nil (answersOf_drop _), ?_⟩
    unfold isWaiting at hwaiting
    split at hwaiting
    next hstage => exact hneither hstage rfl rfl
    next hstage => exact hneither hstage rfl rfl
    · cases hwaiting
  | detach hwaiting => exact ⟨rfl, id, id⟩

/-- A failure is reported with the move that leads out of it and with no other. Whoever is about to
leave after it was answered does not fail any more. -/
theorem Step.failures (h : Step hooks config r input r' told) :
    Request.failures told = 1 ∧ r.stage.isFailing = true ∧ r'.stage = .finishing ∨
      Request.failures told = 0 ∧ (r.stage.isFailing = true → r'.stage.isFailing = true) ∧
        (r.stage.isConcluding = true → r'.stage.isConcluding = true) := by
  cases h with
  | stay => exact .inr ⟨rfl, id, id⟩
  | keepRank qos => exact .inr ⟨rfl, id, id⟩
  | rank qos h => exact .inr ⟨rfl, id, id⟩
  | pass h =>
    refine .inr ⟨rfl, ?_⟩
    generalize r.stage = before at h
    cases h <;> exact ⟨nofun, nofun⟩
  | own h => exact .inr h.failures
  | fail h => exact .inl ⟨by rw [Request.failures, answersOf_fail]; rfl, by rw [h]; rfl, rfl⟩
  | finish h =>
    refine .inr ⟨failures_of_nil (answersOf_finish r), ?_⟩
    rw [h]
    exact ⟨nofun, fun _ ↦ isConcluding_ofFinish _⟩
  | refuse h =>
    refine .inr ⟨failures_of_nil (answersOf_refuse r _), ?_⟩
    rcases h with ⟨admitted, h⟩ | ⟨h, -⟩ <;> rw [h] <;> exact ⟨nofun, nofun⟩

/-- The failure of a request is reported once at most, and then the request is on its way out. -/
theorem Run.failures (h : Run hooks config start inputs r told) :
    Request.failures told = 0 ∨ Request.failures told = 1 ∧ r.stage.isConcluding = true := by
  induction h with
  | start => exact .inl rfl
  | @step inputs r r' input told more h s ih =>
    rw [failures_append]
    rcases s.failures with ⟨hone, hfailing, hstage⟩ | ⟨hnone, -, hconcluding⟩
    · rcases ih with ih | ⟨-, hconcluding⟩
      · exact .inr ⟨by omega, by rw [hstage]; rfl⟩
      · obtain ⟨failure, hstage⟩ := Stage.isFailing_iff.mp hfailing
        rw [hstage] at hconcluding
        cases hconcluding
    · rcases ih with ih | ⟨ih, hbefore⟩
      · exact .inl (by omega)
      · exact .inr ⟨by omega, hconcluding hbefore⟩

end Request

end Turnstile
