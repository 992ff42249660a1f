import Turnstile.Request

/-!
# Requests do not know their ordinals

The ordinal of a request is for the scheduler and for the user code that is told of a request. What
the request does does not depend on it: under another ordinal, with hooks that treat it as they
treated it before, it comes to the same and tells the same, only with the other ordinal where the
sensor is told of it.
-/

namespace Turnstile

/-- The same event of the request with the ordinal `k`. -/
def SensorEvent.renumber (k : Nat) : SensorEvent → SensorEvent
  | .connectionError _ message => .connectionError k message
  | .rejected _ reason => .rejected k reason
  | .cleanupFailed _ message => .cleanupFailed k message

/-- The same happening of the request with the ordinal `k`. -/
def Happening.renumber (k : Nat) : Happening → Happening
  | .sensed event fault? => .sensed (event.renumber k) fault?
  | h => h

/-- The hooks that treat everybody as `h` treats the request with the ordinal `n`. -/
def Hooks.only (h : Hooks) (n : Nat) : Hooks where
  classify _ := h.classify n
  format _ := h.format n
  sense event := h.sense (event.renumber n)
  kindName := h.kindName

namespace Request

variable {σ : Type} {hooks : Hooks} {r : Request σ} {k : Nat}

/-- The request under the ordinal `k`. -/
def renumber (k : Nat) (r : Request σ) : Request σ := { r with ordinal := k }

/-- What becomes of a request and what is told of it, under the ordinal `k`. -/
def renumbered (k : Nat) (outcome : Request σ × List Happening) : Request σ × List Happening :=
  (outcome.1.renumber k, outcome.2.map (Happening.renumber k))

/-! ## The program -/

theorem takeOver_renumber (d : Dossier) :
    (r.renumber k).takeOver d = renumbered k (r.takeOver d) := by
  rw [takeOver, takeOver, renumbered, List.map_map]
  rfl

theorem act_renumber (next : Value → Program) (action : Action) :
    (r.renumber k).act next action = renumbered k (r.act next action) := by
  cases action <;> rfl

theorem react_renumber (next : Value → Program) (reaction : Reaction) :
    (r.renumber k).react next reaction = renumbered k (r.react next reaction) := by
  cases reaction with
  | resume v d => rw [react, react, takeOver_renumber]; rfl
  | enter p d => rw [react, react, takeOver_renumber]; rfl
  | fault f d => rw [react, react, takeOver_renumber]; rfl
  | act action => exact act_renumber next action
  | _ => rfl

theorem proceed_renumber [Exchange σ] (outcome : Routine.Outcome Operation Value) :
    (r.renumber k).proceed outcome = renumbered k (r.proceed outcome) := by
  cases outcome with
  | finished v => cases v <;> rfl
  | faulted f => rfl
  | suspended op next => exact react_renumber next _

variable [Exchange σ]

theorem turn_renumber (r : Request σ) (k : Nat) : (r.renumber k).turn = renumbered k r.turn := by
  rw [turn, turn, renumber]
  dsimp only
  cases r.program with
  | none => rfl
  | some p => exact proceed_renumber (r := { r with program := none }) p.run

/-! ## The transport -/

theorem depart_renumber (r : Request σ) (k maxBodyBytes chunkSize : Nat) (exit : Exit) :
    (r.renumber k).depart maxBodyBytes chunkSize exit =
      renumbered k (r.depart maxBodyBytes chunkSize exit) := by
  cases exit with
  | respond response =>
    rw [depart, depart, beginResponse, beginResponse, renumber]
    dsimp only
    split <;> rfl
  | readBody limit next =>
    rw [depart, depart, beginRead, beginRead, renumber]
    dsimp only
    split <;> rfl
  | fail failure => rfl

omit [Exchange σ] in
theorem nextEvent?_renumber (r : Request σ) (k : Nat) :
    (r.renumber k).nextEvent? = r.nextEvent?.map fun taken ↦ (taken.1, taken.2.renumber k) := by
  rw [nextEvent?, nextEvent?, renumber]
  dsimp only
  split <;> simp only [Option.map_map, Option.map_none] <;> rfl

theorem receive_renumber (r : Request σ) (k : Nat) (event : IoEvent) :
    (r.renumber k).receive event = renumbered k (r.receive event) := by
  rw [receive, receive, renumber]
  dsimp only
  split
  next reader next hstage =>
    rw [receiveRead, receiveRead]
    split <;> rfl
  next writer hstage =>
    rw [receiveWrite, receiveWrite]
    dsimp only
    split <;> simp only [renumbered, List.map_map] <;> rfl
  · rfl

omit [Exchange σ] in
theorem deliver_renumber (r : Request σ) (k : Nat) (events : List IoEvent)
    (direction : Direction) :
    (r.renumber k).deliver events direction = (r.deliver events direction).renumber k := by
  cases direction <;> rfl

/-! ## The ends -/

omit [Exchange σ] in
theorem sweep_renumber (hooks : Hooks) (r : Request σ) (k : Nat) :
    sweep (hooks.only r.ordinal) (r.renumber k) = renumbered k (sweep hooks r) := by
  have htold (event : Cleanup.Event String) : tellSwept (hooks.only r.ordinal) k event =
      (tellSwept hooks r.ordinal event).map (Happening.renumber k) := by
    cases event <;> rfl
  rw [sweep, sweep, renumbered, List.map_flatMap]
  exact Prod.ext rfl (congrArg (List.flatMap · _) (funext htold))

theorem sendError_renumber (r : Request σ) (k : Nat) (response : Response) :
    (r.renumber k).sendError response = renumbered k (r.sendError response) := by
  rw [sendError, sendError, renumber]
  dsimp only
  split <;> rfl

theorem fail_renumber (hooks : Hooks) (r : Request σ) (k : Nat) (failure : Failure) :
    Request.fail (hooks.only r.ordinal) (r.renumber k) failure =
      renumbered k (Request.fail hooks r failure) := by
  have hsent := sendError_renumber r k (hooks.errorResponse r.ordinal r.metadata)
  rw [Request.fail, Request.fail]
  dsimp only
  exact congrArg (fun sent ↦ ({ sent.1 with stage := .finishing }, _ :: sent.2)) hsent

theorem finish_renumber (hooks : Hooks) (r : Request σ) (k : Nat) :
    Request.finish (hooks.only r.ordinal) (r.renumber k) =
      ((Request.finish hooks r).1, renumbered k (Request.finish hooks r).2) := by
  rw [Request.finish, Request.finish]
  by_cases hclosed : r.closed = true
  · rw [if_pos hclosed]
    exact if_pos hclosed
  · have hswept : sweep (hooks.only r.ordinal) { r.renumber k with closed := true } =
        renumbered k (sweep hooks { r with closed := true }) :=
      sweep_renumber hooks { r with closed := true } k
    rw [if_neg hclosed]
    refine (if_neg hclosed).trans ?_
    rw [hswept]
    simp only [renumbered, List.map_append]
    rfl

theorem refuse_renumber (hooks : Hooks) (r : Request σ) (k : Nat) (reason : Refusal) :
    Request.refuse (hooks.only r.ordinal) (r.renumber k) reason =
      renumbered k (Request.refuse hooks r reason) := by
  rw [Request.refuse, Request.refuse]
  by_cases hclosed : r.closed = true
  · rw [if_pos hclosed]
    exact if_pos hclosed
  · rw [if_neg hclosed]
    refine (if_neg hclosed).trans ?_
    rw [renumber]
    dsimp only
    split
    · rfl
    next exchange hreject =>
      have hswept := sweep_renumber hooks { r with closed := true, exchange } k
      exact congrArg (fun swept ↦ (swept.1, _ :: _ :: swept.2)) hswept

omit [Exchange σ] in
theorem drop_renumber (hooks : Hooks) (r : Request σ) (k : Nat) :
    Request.drop (hooks.only r.ordinal) (r.renumber k) = renumbered k (Request.drop hooks r) := by
  rw [Request.drop, Request.drop]
  by_cases hclosed : r.closed = true
  · rw [if_pos hclosed]
    exact if_pos hclosed
  · rw [if_neg hclosed]
    exact (if_neg hclosed).trans (sweep_renumber hooks { r with closed := true } k)

end Request

end Turnstile
