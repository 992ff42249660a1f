import Turnstile.Proofs.Cleanup.Operations
import Turnstile.Proofs.Request.Place

/-!
# How a request ends

A request that is open runs no sweep and makes no call that ends its exchange. So whatever led it to
its end, what is told of it begins with a part in which cleaners are started by its program only;
then comes the sweep, in rounds; then its exchange is declared over, and nothing after it
(`Request.Finalized`). After that there is no second end (`Request.endAll_of_closed`).

## The cleaners of a request

Two operations concern cleaners: one registers them, the other invokes them. Every other move leaves
them alone while the request is open, so they are what these two make of no cleaners, one after the
other, as the program asked for them (`Cleanup.after`). In particular they are those registered, in
this order, whoever was invoked meanwhile.

## What is told

`Request.Chronicle` ties the story told of a request to the state of its cleaners and says that
nothing is told of an end while the request is open. Every step keeps it, so it is there when the
last step comes, and what this step tells completes the story.
-/

namespace Turnstile

open Cleanup (Event Op Round Rounds Sweeps eventsOf eventsOf_cons starts)

namespace Happening

/-- What happened to the cleaners, if it did. -/
def cleaner? : Happening → Option (Event String)
  | .cleaner event => some event
  | _ => none

/-- The exchange is declared over or refused. -/
def endsExchange : Happening → Bool
  | .call (.complete _) | .call (.reject _ _) => true
  | _ => false

/-- The sensor hears of a cleaner that broke off. -/
def reportsCleanup : Happening → Bool
  | .sensed (.cleanupFailed _ _) _ => true
  | _ => false

end Happening

/-- The dossier that a program goes on with, if its worker keeps it. -/
def Reaction.dossier? : Reaction → Option Dossier
  | .resume _ d | .enter _ d | .fault _ d => some d
  | .respond _ | .readBody _ | .act _ => none

/-! ## The cleaners of a request -/

/-- What an operation does to the cleaners, if it concerns them. -/
def Operation.onCleaners? : Operation → Option (Op String)
  | .addCleaner action => some (.register action)
  | .invokeCleaner handle => some (.invoke handle)
  | _ => none

/-- The cleaner that an operation registers, if it registers one. -/
def Operation.cleaner? : Operation → Option (Cleaner String)
  | .addCleaner action => some action
  | _ => none

namespace Cleanup

/-- The cleaners of a request after some operations were carried out for it. -/
def after (ops : List Operation) : Cleanup String :=
  empty.applyAll (ops.filterMap Operation.onCleaners?)

theorem registered_onCleaners (ops : List Operation) :
    registered (ops.filterMap Operation.onCleaners?) = ops.filterMap Operation.cleaner? := by
  rw [registered, List.filterMap_filterMap]
  refine congrArg (List.filterMap · ops) (funext fun op ↦ ?_)
  cases op <;> rfl

theorem after_append (ops : List Operation) (op? : Option Operation) :
    after (ops ++ op?.toList) = (after ops).applyAll (op?.bind Operation.onCleaners?).toList := by
  rw [after, List.filterMap_append, applyAll_append]
  cases op? with
  | none => rfl
  | some op => cases op <;> rfl

theorem tracked_after (ops : List Operation) : (after ops).Tracked := Tracked.empty.applyAll _

theorem swept_after (ops : List Operation) : (after ops).swept = false := by
  refine Bool.eq_false_iff.mpr fun hswept ↦ ?_
  rcases (swept_applyAll empty _).mp hswept with hempty | hmem
  · cases hempty
  · obtain ⟨op, -, hop⟩ := List.mem_filterMap.mp hmem
    cases op <;> cases hop

theorem registers_after {ops : List Operation} {op : Op String} {c : Cleanup String}
    (h : op.Within (after ops) c) : c.Registers (ops.filterMap Operation.cleaner?) :=
  registered_onCleaners ops ▸ registers_within _ h

theorem size_after (ops : List Operation) :
    (after ops).size = (ops.filterMap Operation.cleaner?).length :=
  (registers_after (.now .sweep (after ops))).size

/-- The cleaners of a request are swept, in rounds, after some operations were carried out for it,
and that makes them `c`. -/
structure SweptAfter (ops : List Operation) (rounds : List (Round String))
    (c : Cleanup String) : Prop where
  /-- It is the sweep that makes them so, -/
  eq : c = (after ops).sweep.2
  /-- and they are still those registered. -/
  registers : c.Registers (ops.filterMap Operation.cleaner?)
  /-- The sweep invokes every cleaner, from the newest to the oldest, and those that this starts
  have their rounds. -/
  visits : Rounds (after ops).size { after ops with swept := true } rounds c
  /-- So it starts those that wait, in rounds from the newest to the oldest. -/
  sweeps : Sweeps { after ops with swept := true } c (after ops).size rounds
  /-- Where no cleaner invokes another, those that were not started before the sweep are started in
  the reverse order of their registration. -/
  order : (∀ id, ¬ (after ops).Mentioned id) → starts (eventsOf rounds) =
    ((List.range (ops.filterMap Operation.cleaner?).length).filter fun id ↦
      id ∉ starts (after ops).history.toList).reverse
  /-- Every cleaner that was registered has been started once, and no other. -/
  once : ∀ id, (starts c.history.toList).count id =
    if id < (ops.filterMap Operation.cleaner?).length then 1 else 0

theorem Swept.after {ops : List Operation} {rounds : List (Round String)}
    (h : (after ops).Swept rounds) : SweptAfter ops rounds (after ops).sweep.2 where
  eq := rfl
  registers := registers_after (.sweep (swept_after ops) h.visits.within)
  visits := h.visits
  sweeps := h.visits.sweeps
  order halone := by
    rw [← size_after]
    exact (tracked_after ops).starts_sweep h.visits.sweeps halone
  once id := by rw [((tracked_after ops).sweeps h.visits.sweeps id).2, size_after]

end Cleanup

namespace Dossier

theorem cleaners_answer (m : Metadata) (d : Dossier) (op : Operation) :
    ((d.answer m op).dossier?.getD d).cleaners = d.cleaners.applyAll op.onCleaners?.toList := by
  cases op with
  | invokeCleaner handle =>
    -- a cleaner that breaks off while it is invoked has run as well
    have happly : d.cleaners.applyAll (Operation.invokeCleaner handle).onCleaners?.toList =
        (d.cleaners.invoke handle).2 := rfl
    rw [answer, happly]
    split
    next c hinvoke => rw [hinvoke]; rfl
    next f c hinvoke => rw [hinvoke]; rfl
  | routePath matcher =>
    rw [answer]
    split <;> rfl
  | _ => rfl

/-- What an operation does to the cleaners of a dossier. -/
structure GoesOn (d d' : Dossier) : Prop where
  /-- The history grows. -/
  history : ∃ told, d'.cleaners.history.toList = d.cleaners.history.toList ++ told
  /-- It keeps track of the cleaners. -/
  tracked : d.cleaners.Tracked → d'.cleaners.Tracked
  /-- The sweep does not begin. -/
  swept : d'.cleaners.swept = d.cleaners.swept

theorem goesOn_answer {m : Metadata} {d d' : Dossier} {op : Operation}
    (h : (d.answer m op).dossier? = some d') : GoesOn d d' := by
  have hcleaners := cleaners_answer m d op
  rw [h, Option.getD_some] at hcleaners
  have hhistory := Cleanup.history_applyAll d.cleaners op.onCleaners?.toList
  refine ⟨?_, ?_, ?_⟩
  · obtain ⟨told, htold⟩ := hhistory
    exact ⟨told, by rw [hcleaners, htold]⟩
  · intro htracked
    rw [hcleaners]
    exact htracked.applyAll _
  · have hswept := Cleanup.swept_applyAll d.cleaners op.onCleaners?.toList
    have hnone : Op.sweep ∉ op.onCleaners?.toList := by cases op <;> simp [Operation.onCleaners?]
    rw [hcleaners, Bool.eq_iff_iff, hswept, or_iff_left hnone]

end Dossier

namespace Request

variable {σ : Type} {hooks : Hooks} {config : Config} {r r' start : Request σ}
  {input : Input} {inputs : List Input} {told more : List Happening} {ops : List Operation}

theorem dossier_react (r : Request σ) (next : Value → Program) (reaction : Reaction) :
    (r.react next reaction).1.dossier = reaction.dossier?.getD r.dossier := by
  cases reaction with
  | act action => cases action <;> rfl
  | _ => rfl

/-- What happened to the cleaners. -/
def cleanersOf (told : List Happening) : List (Event String) := told.filterMap Happening.cleaner?

/-- No exchange is ended and no cleaner is said to have broken off. -/
def Quiet (told : List Happening) : Prop :=
  ∀ h ∈ told, h.endsExchange = false ∧ h.reportsCleanup = false

@[simp] theorem cleanersOf_append (told more : List Happening) :
    cleanersOf (told ++ more) = cleanersOf told ++ cleanersOf more := List.filterMap_append

@[simp] theorem cleanersOf_nil : cleanersOf [] = [] := rfl

@[simp] theorem cleanersOf_map_cleaner (events : List (Event String)) :
    cleanersOf (events.map .cleaner) = events := by
  rw [cleanersOf, List.filterMap_map]
  exact List.filterMap_some

@[simp] theorem cleanersOf_map_call (calls : List Call) : cleanersOf (calls.map .call) = [] := by
  rw [cleanersOf, List.filterMap_map]
  exact List.filterMap_eq_nil_iff.mpr fun _ _ ↦ rfl

theorem Quiet.nil : Quiet [] := by simp [Quiet]

theorem Quiet.append (h : Quiet told) (h' : Quiet more) : Quiet (told ++ more) := by
  intro x hx
  rcases List.mem_append.mp hx with hx | hx
  · exact h x hx
  · exact h' x hx

theorem quiet_map_cleaner (events : List (Event String)) : Quiet (events.map .cleaner) := by
  intro h hh
  obtain ⟨event, -, rfl⟩ := List.mem_map.mp hh
  exact ⟨rfl, rfl⟩

/-! ## Moves of a request that is open -/

/-- A move that does not end the request: the cleaners go on as it is told. -/
structure GoesOn (r r' : Request σ) (told : List Happening) : Prop where
  /-- What happened to the cleaners is told. -/
  history : r'.dossier.cleaners.history.toList =
    r.dossier.cleaners.history.toList ++ cleanersOf told
  /-- The history of the cleaners keeps track of them. -/
  tracked : r.dossier.cleaners.Tracked → r'.dossier.cleaners.Tracked
  /-- The sweep does not begin. -/
  swept : r'.dossier.cleaners.swept = r.dossier.cleaners.swept
  /-- The request stays as open as it was. -/
  closed : r'.closed = r.closed
  /-- Nothing else is told of the end. -/
  quiet : Quiet told

theorem GoesOn.of_eq (hcleaners : r'.dossier.cleaners = r.dossier.cleaners)
    (hclosed : r'.closed = r.closed) (htold : cleanersOf told = []) (hquiet : Quiet told) :
    GoesOn r r' told where
  history := by rw [hcleaners, htold, List.append_nil]
  tracked h := hcleaners ▸ h
  swept := by rw [hcleaners]
  closed := hclosed
  quiet := hquiet

theorem since_of_append {α : Type} {j earlier : Journal α} {xs : List α}
    (h : j.toList = earlier.toList ++ xs) : j.since earlier = xs := by
  rw [Journal.since_eq_drop, h, ← Journal.length_toList, List.drop_left]

theorem goesOn_takeOver {d : Dossier} (h : r.dossier.GoesOn d) :
    GoesOn r (r.takeOver d).1 (r.takeOver d).2 := by
  obtain ⟨events, hevents⟩ := h.history
  have htold : (r.takeOver d).2 = events.map .cleaner := by
    rw [takeOver, since_of_append hevents]
  rw [htold]
  exact {
    history := by
      rw [cleanersOf_map_cleaner]
      exact hevents
    tracked := h.tracked
    swept := h.swept
    closed := rfl
    quiet := quiet_map_cleaner events }

theorem GoesOn.restage (h : GoesOn r r' told) {stage : Stage} {program : Option Program} :
    GoesOn r { r' with stage, program } told := { h with }

theorem goesOn_react (next : Value → Program) {reaction : Reaction}
    (h : ∀ d, reaction.dossier? = some d → r.dossier.GoesOn d) :
    GoesOn r (r.react next reaction).1 (r.react next reaction).2 := by
  cases reaction with
  | resume v d => exact (goesOn_takeOver (h d rfl)).restage
  | enter p d => exact (goesOn_takeOver (h d rfl)).restage
  | fault f d => exact (goesOn_takeOver (h d rfl)).restage
  | respond response => exact .of_eq rfl rfl rfl .nil
  | readBody limit => exact .of_eq rfl rfl rfl .nil
  | act action =>
    cases action with
    | note text => exact .of_eq rfl rfl rfl (by simp [Quiet, react, act, Happening.endsExchange,
        Happening.reportsCleanup])
    | gate => exact .of_eq rfl rfl rfl .nil
    | look handle => exact .of_eq rfl rfl rfl .nil

variable [Exchange σ]

theorem goesOn_turn (r : Request σ) : GoesOn r r.turn.1 r.turn.2 := by
  unfold turn
  split
  · exact .of_eq rfl rfl rfl .nil
  next p hp =>
    cases p.run with
    | finished value =>
      cases value <;> exact .of_eq rfl rfl rfl .nil
    | faulted f => exact .of_eq rfl rfl rfl .nil
    | suspended op next =>
      have hanswer (d : Dossier) (hd : (r.dossier.answer r.metadata op).dossier? = some d) :
          r.dossier.GoesOn d := Dossier.goesOn_answer hd
      exact { goesOn_react (r := { r with program := none }) next hanswer with }

theorem cleaners_turn (h : r.stage = .running) :
    r.turn.1.dossier.cleaners =
      r.dossier.cleaners.applyAll (r.executes?.bind Operation.onCleaners?).toList := by
  unfold turn executes?
  rw [h]
  cases r.program with
  | none => rfl
  | some p =>
    dsimp only
    cases p.run with
    | finished value => cases value <;> rfl
    | faulted f => rfl
    | suspended op next =>
      dsimp only [proceed]
      rw [dossier_react]
      exact Dossier.cleaners_answer _ _ op

omit [Exchange σ] in
theorem quiet_call {c : Call} (h : (Happening.call c).endsExchange = false) : Quiet [.call c] := by
  intro x hx
  rw [List.mem_singleton] at hx
  subst hx
  exact ⟨h, rfl⟩

theorem goesOn_depart (maxBodyBytes chunkSize : Nat) (exit : Exit) :
    GoesOn r (r.depart maxBodyBytes chunkSize exit).1
      (r.depart maxBodyBytes chunkSize exit).2 := by
  cases exit with
  | respond response =>
    rw [depart, beginResponse]
    split
    next response' dossier hassemble =>
      have hcleaners : dossier.cleaners = r.dossier.cleaners := by
        rw [Dossier.assemble] at hassemble
        cases hassemble
        rfl
      split
      split <;> exact .of_eq hcleaners rfl rfl (quiet_call rfl)
  | readBody limit next =>
    rw [depart, beginRead]
    split
    split <;> exact .of_eq rfl rfl rfl (quiet_call rfl)
  | fail failure => exact .of_eq rfl rfl rfl .nil

omit [Exchange σ] in
theorem goesOn_receiveRead (r : Request σ) (reader : BodyReader) (next : Value → Program)
    (event : IoEvent) : GoesOn r (r.receiveRead reader next event) [] := by
  unfold receiveRead
  split <;> exact .of_eq rfl rfl rfl .nil

theorem quiet_writeAll {chunkSize : Nat} (pos : 0 < chunkSize) (unsent : Bytes) (exchange : σ) :
    Quiet ((ResponseWriter.writeAll chunkSize pos unsent exchange).calls.map .call) := by
  fun_induction ResponseWriter.writeAll chunkSize pos unsent exchange with
  | case1 => exact .nil
  | case2 => exact quiet_call rfl
  | case3 => exact quiet_call rfl
  | case4 => exact (quiet_call rfl).append (quiet_call rfl)
  | case5 =>
    rename_i ih
    exact ((quiet_call rfl).append (quiet_call rfl)).append ih

theorem goesOn_receiveWrite (r : Request σ) (writer : ResponseWriter) (event : IoEvent) :
    GoesOn r (r.receiveWrite writer event).1 (r.receiveWrite writer event).2 := by
  have hquiet : Quiet ((writer.advance event r.exchange).2.2.2.map .call) := by
    cases event with
    | writable => exact quiet_writeAll _ _ _
    | data chunk => exact .nil
    | allRead => exact .nil
    | error e => exact .nil
  unfold receiveWrite
  split
  all_goals
    next h =>
      rw [h] at hquiet
      exact .of_eq rfl rfl (cleanersOf_map_call _) hquiet

theorem goesOn_receive {event : IoEvent} (h : r.nextEvent? = some (event, r')) :
    GoesOn r (r'.receive event).1 (r'.receive event).2 := by
  rcases nextEvent?_eq_some h with ⟨reader, next, box, rest, hstage, -, -, rfl⟩ |
    ⟨writer, box, rest, hstage, -, -, rfl⟩
  · rw [receive]
    simp only [hstage]
    exact { goesOn_receiveRead { r with reads := some rest } reader next event with }
  · rw [receive]
    simp only [hstage]
    exact { goesOn_receiveWrite { r with writes := some rest } writer event with }

theorem goesOn_fail (failure : Failure) :
    GoesOn r (Request.fail hooks r failure).1 (Request.fail hooks r failure).2 := by
  have hreport :
      Quiet [report hooks (.connectionError r.ordinal (failure.message hooks.kindName))] := by
    intro x hx
    rw [List.mem_singleton] at hx
    subst hx
    exact ⟨rfl, rfl⟩
  have hsent : GoesOn r (r.sendError (hooks.errorResponse r.ordinal r.metadata)).1
      (r.sendError (hooks.errorResponse r.ordinal r.metadata)).2 := by
    unfold sendError
    split
    split
    · exact .of_eq rfl rfl rfl (quiet_call rfl)
    · split
      exact .of_eq rfl rfl rfl ((quiet_call rfl).append (quiet_call rfl))
  exact { hsent with quiet := hreport.append hsent.quiet }

/-! ## The sweep -/

omit [Exchange σ] in
@[simp] theorem cleanersOf_tellSwept (hooks : Hooks) (ordinal : Nat)
    (events : List (Event String)) :
    cleanersOf (events.flatMap (tellSwept hooks ordinal)) = events := by
  induction events with
  | nil => rfl
  | cons event events ih =>
    rw [List.flatMap_cons, cleanersOf_append, ih]
    cases event <;> rfl

theorem filter_tellSwept_round (hooks : Hooks) (ordinal : Nat) (round : Round String)
    (hsilent : ∀ id fault, .failed id fault ∉ round.inside) :
    (round.events.flatMap (tellSwept hooks ordinal)).filter Happening.endsExchange = [] ∧
      (round.events.flatMap (tellSwept hooks ordinal)).filter Happening.reportsCleanup =
        (round.fault?.map fun fault ↦
          report hooks (.cleanupFailed ordinal (fault.messageWith hooks.kindName))).toList := by
  -- only the end of the round can say that a cleaner broke off, so the inside tells of nothing else
  have hinside (events : List (Event String)) (h : ∀ id fault, .failed id fault ∉ events) :
      (events.flatMap (tellSwept hooks ordinal)).filter Happening.endsExchange = [] ∧
        (events.flatMap (tellSwept hooks ordinal)).filter Happening.reportsCleanup = [] := by
    induction events with
    | nil => exact ⟨rfl, rfl⟩
    | cons event events ih =>
      obtain ⟨hends, hreports⟩ := ih fun id fault hmem ↦ h id fault (List.mem_cons_of_mem _ hmem)
      rw [List.flatMap_cons, List.filter_append, List.filter_append, hends, hreports]
      cases event with
      | started id => exact ⟨rfl, rfl⟩
      | note n => exact ⟨rfl, rfl⟩
      | failed id fault => exact absurd List.mem_cons_self (h id fault)
  obtain ⟨hends, hreports⟩ := hinside round.inside hsilent
  rw [Round.events, List.flatMap_append, List.flatMap_cons, List.filter_append, List.filter_append,
    List.filter_append, List.filter_append, hends, hreports]
  cases round.fault? <;> exact ⟨rfl, rfl⟩

/-- What the sweep tells: no exchange is ended, and each round in which the cleaner broke off is
reported once, with the ordinal of the request. -/
theorem filter_tellSwept (hooks : Hooks) {rounds : List (Round String)}
    (hsilent : ∀ r ∈ rounds, ∀ id fault, .failed id fault ∉ r.inside) (ordinal : Nat) :
    ((eventsOf rounds).flatMap (tellSwept hooks ordinal)).filter Happening.endsExchange = [] ∧
      ((eventsOf rounds).flatMap (tellSwept hooks ordinal)).filter Happening.reportsCleanup =
        rounds.filterMap fun round ↦ round.fault?.map fun fault ↦
          report hooks (.cleanupFailed ordinal (fault.messageWith hooks.kindName)) := by
  induction rounds with
  | nil => exact ⟨rfl, rfl⟩
  | cons round rounds ih =>
    obtain ⟨hends, hreports⟩ := ih fun r hr ↦ hsilent r (List.mem_cons_of_mem _ hr)
    obtain ⟨hround, hround'⟩ := filter_tellSwept_round hooks ordinal round
      (hsilent round List.mem_cons_self)
    rw [eventsOf_cons, List.flatMap_append, List.filter_append, List.filter_append, hends, hreports,
      hround, hround', List.filterMap_cons]
    refine ⟨rfl, ?_⟩
    cases round.fault? <;> rfl

/-! ## The chronicle -/

/-- What is told of a request, and what its cleaners are. -/
structure Chronicle (r : Request σ) (told : List Happening) : Prop where
  /-- What happened to the cleaners is told. -/
  history : r.dossier.cleaners.history.toList = cleanersOf told
  /-- The history keeps track of the cleaners. -/
  tracked : r.dossier.cleaners.Tracked
  /-- While the request is open the sweep has not begun, and nothing is told of an end. -/
  opened : r.closed = false → r.dossier.cleaners.swept = false ∧ Quiet told

omit [Exchange σ] in
theorem exists_swept (hooks : Hooks) (h : r.dossier.cleaners.Tracked)
    (hswept : r.dossier.cleaners.swept = false) :
    ∃ rounds, r.dossier.cleaners.Swept rounds ∧
      (sweep hooks r).2 = (eventsOf rounds).flatMap (tellSwept hooks r.ordinal) := by
  obtain ⟨rounds, hrounds⟩ := h.exists_swept hswept
  have hsince := since_of_append hrounds.history
  exact ⟨rounds, hrounds, congrArg (List.flatMap (tellSwept hooks r.ordinal)) hsince⟩

omit [Exchange σ] in
theorem Chronicle.sweep (h : Chronicle r told) (hooks : Hooks) (hopen : r.closed = false) :
    (Request.sweep hooks r).1.dossier.cleaners.history.toList =
        cleanersOf (told ++ (Request.sweep hooks r).2) ∧
      (Request.sweep hooks r).1.dossier.cleaners.Tracked := by
  obtain ⟨rounds, hrounds, htold⟩ := exists_swept hooks h.tracked (h.opened hopen).1
  refine ⟨?_, Cleanup.stable_tracked.sweep h.tracked⟩
  rw [htold, cleanersOf_append, cleanersOf_tellSwept, ← h.history]
  exact hrounds.history

omit [Exchange σ] in
theorem Chronicle.goesOn (h : Chronicle r told) (hgoes : GoesOn r r' more) :
    Chronicle r' (told ++ more) where
  history := by rw [hgoes.history, h.history, cleanersOf_append]
  tracked := hgoes.tracked h.tracked
  opened hopen := by
    obtain ⟨hswept, hquiet⟩ := h.opened (hgoes.closed ▸ hopen)
    exact ⟨hgoes.swept.trans hswept, hquiet.append hgoes.quiet⟩

omit [Exchange σ] in
theorem Chronicle.congr (h : Chronicle r told)
    (hcleaners : r'.dossier.cleaners = r.dossier.cleaners) (hclosed : r'.closed = r.closed) :
    Chronicle r' (told ++ []) :=
  h.goesOn (.of_eq hcleaners hclosed rfl .nil)

omit [Exchange σ] in
theorem Chronicle.over (h : Chronicle r told) (hooks : Hooks) (before after : List Happening)
    (hopen : r.closed = false) (hclosed : r'.closed = true)
    (hcleaners : r'.dossier.cleaners = (Request.sweep hooks r).1.dossier.cleaners)
    (hbefore : cleanersOf before = []) (hafter : cleanersOf after = []) :
    Chronicle r' (told ++ (before ++ (Request.sweep hooks r).2 ++ after)) := by
  obtain ⟨hhistory, htracked⟩ := h.sweep hooks hopen
  exact {
    history := by
      rw [hcleaners, hhistory]
      simp only [cleanersOf_append, hbefore, hafter, List.nil_append, List.append_nil]
    tracked := hcleaners ▸ htracked
    opened := fun h ↦ by rw [hclosed] at h; cases h }

theorem finish_of_open (h : r.closed = false) :
    Request.finish hooks r =
      (some (Exchange.complete r.exchange).1.isNone,
        { (Request.sweep hooks { r with closed := true }).1 with
          exchange := (Exchange.complete r.exchange).2 },
        (Request.sweep hooks { r with closed := true }).2 ++
          [.call (.complete (Exchange.complete r.exchange).1)]) := by
  rw [Request.finish, h]
  rfl

theorem Chronicle.finish {stage : Stage} (h : Chronicle r told) (hopen : r.closed = false) :
    Chronicle { (Request.finish hooks r).2.1 with stage }
      (told ++ (Request.finish hooks r).2.2) := by
  rw [finish_of_open hopen]
  exact h.over hooks [] [.call (.complete (Exchange.complete r.exchange).1)] hopen rfl rfl rfl rfl

theorem Chronicle.refuse {reason : Refusal} {stage : Stage} (h : Chronicle r told)
    (hopen : r.closed = false) :
    Chronicle { (Request.refuse hooks r reason).1 with stage }
      (told ++ (Request.refuse hooks r reason).2) := by
  unfold Request.refuse
  rw [if_neg (by simp [hopen])]
  dsimp only
  split
  next f exchange hreject =>
    exact {
      history := by
        rw [cleanersOf_append]
        exact h.history.trans (List.append_nil _).symm
      tracked := h.tracked
      opened := fun hclosed ↦ by cases hclosed }
  next exchange hreject =>
    have hover : Chronicle
        { (Request.sweep hooks { r with closed := true, exchange }).1 with stage }
        (told ++ ([report hooks (.rejected r.ordinal reason.message),
          .call (.reject reason none)] ++ (Request.sweep hooks r).2 ++ [])) :=
      h.over hooks [_, _] [] hopen rfl rfl rfl rfl
    rw [List.append_nil] at hover
    exact hover

omit [Exchange σ] in
theorem Chronicle.forget (h : Chronicle r told) (hopen : r.closed = false) :
    Chronicle
      { (Request.drop hooks { r with reads := none, writes := none }).1 with stage := .lost }
      (told ++ (Request.drop hooks { r with reads := none, writes := none }).2) := by
  unfold Request.drop
  rw [if_neg (by simp [hopen])]
  have hover : Chronicle
      { (Request.sweep hooks { r with closed := true, reads := none, writes := none }).1 with
        stage := .lost }
      (told ++ ([] ++ (Request.sweep hooks r).2 ++ [])) :=
    h.over hooks [] [] hopen rfl rfl rfl rfl
  rw [List.append_nil] at hover
  exact hover

theorem Own.chronicle (h : Own hooks config r input r' more) (hw : r.WellFormed)
    (hc : Chronicle r told) : Chronicle r' (told ++ more) := by
  cases h with
  | turn hstage => exact hc.goesOn (goesOn_turn r)
  | depart hstage => exact hc.goesOn (goesOn_depart _ _ _)
  | receive hevent => exact hc.goesOn (goesOn_receive hevent)
  | deliver events direction => cases direction <;> exact hc.congr rfl rfl
  | wake hwake => exact hc.congr rfl rfl
  | forget hwaiting =>
    refine hc.forget (hw.closed ?_)
    unfold isWaiting at hwaiting
    split at hwaiting
    next hstage => rw [hstage]; rfl
    next hstage => rw [hstage]; rfl
    · cases hwaiting
  | detach hwaiting => exact hc.congr rfl rfl

theorem Step.chronicle (h : Step hooks config r input r' more) (hw : r.WellFormed)
    (hc : Chronicle r told) : Chronicle r' (told ++ more) := by
  cases h with
  | stay => exact hc.congr rfl rfl
  | keepRank qos => exact hc.congr rfl rfl
  | rank qos h => exact hc.congr rfl rfl
  | pass h => exact hc.goesOn (.of_eq rfl rfl rfl .nil)
  | own h => exact h.chronicle hw hc
  | fail h => exact hc.goesOn (goesOn_fail _)
  | finish h => exact hc.finish (hw.closed (by rw [h]; rfl))
  | refuse h => exact hc.refuse (hw.closed_of_refused h)

theorem chronicle_new (ordinal : Nat) (qos : Qos) (exchange : σ) (program : Program) :
    Chronicle (new ordinal qos exchange program) [] where
  history := rfl
  tracked := .empty
  opened _ := ⟨rfl, .nil⟩

theorem Run.chronicle {ordinal : Nat} {qos : Qos} {exchange : σ} {program : Program}
    (h : Run hooks config (new ordinal qos exchange program) inputs r told) :
    r.WellFormed ∧ r.ordinal = ordinal ∧ Chronicle r told := by
  induction h with
  | start => exact ⟨wellFormed_new _ _ _ _, rfl, chronicle_new _ _ _ _⟩
  | step h s ih =>
    obtain ⟨hw, hordinal, hc⟩ := ih
    obtain ⟨hordinal', hw'⟩ := s.kept hw
    exact ⟨hw', hordinal'.trans hordinal, s.chronicle hw hc⟩

omit [Exchange σ] in
theorem closed_drop (hooks : Hooks) (r : Request σ) : (Request.drop hooks r).1.closed = true := by
  unfold Request.drop
  split
  next h => exact h
  · rfl

theorem closed_finish (hooks : Hooks) (r : Request σ) :
    (Request.finish hooks r).2.1.closed = true := by
  unfold Request.finish
  split
  next h => exact h
  · rfl

theorem closed_refuse (hooks : Hooks) (r : Request σ) (reason : Refusal) :
    (Request.refuse hooks r reason).1.closed = true := by
  unfold Request.refuse
  split
  next h => exact h
  · dsimp only
    split <;> rfl

theorem cleaners_depart (maxBodyBytes chunkSize : Nat) (exit : Exit) :
    (r.depart maxBodyBytes chunkSize exit).1.dossier.cleaners = r.dossier.cleaners := by
  cases exit with
  | respond response =>
    rw [depart, beginResponse]
    dsimp only [Dossier.assemble]
    split <;> rfl
  | readBody limit next =>
    rw [depart, beginRead]
    split
    split <;> rfl
  | fail failure => rfl

/-- A request that stays open was open, and nothing but a turn of its program touches its
cleaners. -/
theorem Step.of_open (h : Step hooks config r input r' more) (hopen : r'.closed = false) :
    r.closed = false ∧ (r.stage ≠ .running → r'.dossier.cleaners = r.dossier.cleaners) := by
  cases h with
  | stay => exact ⟨hopen, fun _ ↦ rfl⟩
  | keepRank qos => exact ⟨hopen, fun _ ↦ rfl⟩
  | rank qos h => exact ⟨hopen, fun _ ↦ rfl⟩
  | pass h => exact ⟨hopen, fun _ ↦ rfl⟩
  | own h =>
    cases h with
    | turn h => exact ⟨(goesOn_turn r).closed.symm.trans hopen, absurd h⟩
    | depart h =>
      exact ⟨(goesOn_depart _ _ _).closed.symm.trans hopen, fun _ ↦ cleaners_depart _ _ _⟩
    | receive h =>
      exact ⟨(goesOn_receive h).closed.symm.trans hopen, fun _ ↦
        congrArg Dossier.cleaners (dossier_receive h)⟩
    | deliver events direction => cases direction <;> exact ⟨hopen, fun _ ↦ rfl⟩
    | wake h => exact ⟨hopen, fun _ ↦ rfl⟩
    | forget h => cases (closed_drop hooks _).symm.trans hopen
    | detach h => exact ⟨hopen, fun _ ↦ rfl⟩
  | fail h =>
    exact ⟨(goesOn_fail _).closed.symm.trans hopen, fun _ ↦
      congrArg Dossier.cleaners (dossier_fail hooks r _)⟩
  | finish h => cases (closed_finish hooks r).symm.trans hopen
  | refuse h => cases (closed_refuse hooks r _).symm.trans hopen

/-! ## Finalized requests -/

/-- The first part of what is told of a request, for which some operations were carried out. -/
structure Opening (ops : List Operation) (early : List Happening) : Prop where
  /-- Nothing is told of an end. -/
  quiet : Quiet early
  /-- The cleaners started in it are those that the operations started. -/
  cleaners : cleanersOf early = (Cleanup.after ops).history.toList
  /-- At any moment of an invocation by one of the operations, and of the sweep, the cleaners are
  those that the operations up to then registered: whoever was not started is started with the
  action of its place. -/
  registers {earlier : List Operation} {op : Op String} {c : Cleanup String} : earlier <+: ops →
    op.Within (Cleanup.after earlier) c → c.Registers (earlier.filterMap Operation.cleaner?)

/-- What is told of a request that left after it was answered, for which some operations were
carried out: a part in which nothing ends and no cleaner is said to have broken off, then the sweep,
in rounds, and last of all the exchange is declared over. -/
structure Finalized (hooks : Hooks) (r : Request σ) (told : List Happening) (ops : List Operation)
    (early : List Happening) (rounds : List (Round String)) (fault? : Option Fault) : Prop where
  /-- The sweep comes last but for the end of the exchange. -/
  story : told = early ++ (eventsOf rounds).flatMap (tellSwept hooks r.ordinal) ++
    [.call (.complete fault?)]
  /-- Before it come the operations. -/
  opening : Opening ops early
  /-- The sweep starts the cleaners that were not started before. -/
  swept : Cleanup.SweptAfter ops rounds r.dossier.cleaners
  /-- Every cleaner that was registered is told of once, and no other. -/
  once : ∀ id, (starts (cleanersOf told)).count id =
    if id < (ops.filterMap Operation.cleaner?).length then 1 else 0
  /-- The exchange is ended once: it is declared over. -/
  ends : told.filter Happening.endsExchange = [.call (.complete fault?)]
  /-- Each cleaner that broke off in the sweep is reported once, whatever the sensor does. -/
  reports : told.filter Happening.reportsCleanup =
    rounds.filterMap fun round ↦ round.fault?.map fun fault ↦
      report hooks (.cleanupFailed r.ordinal (fault.messageWith hooks.kindName))

omit [Exchange σ] in
theorem Quiet.filter (h : Quiet told) :
    told.filter Happening.endsExchange = [] ∧ told.filter Happening.reportsCleanup = [] :=
  ⟨List.filter_eq_nil_iff.mpr fun x hx ↦ by simp [(h x hx).1],
    List.filter_eq_nil_iff.mpr fun x hx ↦ by simp [(h x hx).2]⟩

omit [Exchange σ] in
/-- What concerns neither dossier nor ordinal does not concern what was told of the end. -/
theorem Finalized.congr {early : List Happening} {rounds : List (Round String)}
    {fault? : Option Fault} (h : Finalized hooks r told ops early rounds fault?)
    (hdossier : r'.dossier = r.dossier) (hordinal : r'.ordinal = r.ordinal) :
    Finalized hooks r' told ops early rounds fault? where
  story := hordinal ▸ h.story
  opening := h.opening
  swept := hdossier ▸ h.swept
  once := h.once
  ends := h.ends
  reports := hordinal ▸ h.reports

omit [Exchange σ] in
theorem Opening.cleanersOf_swept {early : List Happening} {rounds : List (Round String)}
    {c : Cleanup String} (h : Opening ops early) (hswept : Cleanup.SweptAfter ops rounds c)
    (hooks : Hooks) (ordinal : Nat) :
    cleanersOf (early ++ (eventsOf rounds).flatMap (tellSwept hooks ordinal)) =
      c.history.toList := by
  rw [cleanersOf_append, cleanersOf_tellSwept, h.cleaners, hswept.sweeps.history]

omit [Exchange σ] in
theorem Finalized.cleanersOf_told {early : List Happening} {rounds : List (Round String)}
    {fault? : Option Fault} (h : Finalized hooks r told ops early rounds fault?) :
    cleanersOf told = r.dossier.cleaners.history.toList := by
  rw [h.story, cleanersOf_append, h.opening.cleanersOf_swept h.swept]
  exact List.append_nil _

omit [Exchange σ] in
theorem Chronicle.opening (h : Chronicle r told) (hopen : r.closed = false)
    (hops : r.dossier.cleaners = Cleanup.after ops) : Opening ops told where
  quiet := (h.opened hopen).2
  cleaners := by rw [← h.history, hops]
  registers _ hwithin := Cleanup.registers_after hwithin

/-- A request that was open is finalized when it leaves. -/
theorem Chronicle.finalized {stage : Stage} (h : Chronicle r told) (hopen : r.closed = false)
    (hops : r.dossier.cleaners = Cleanup.after ops) :
    ∃ rounds, Finalized hooks { (Request.finish hooks r).2.1 with stage }
      (told ++ (Request.finish hooks r).2.2) ops told rounds (Exchange.complete r.exchange).1 := by
  have hopening := h.opening hopen hops
  obtain ⟨rounds, hrounds, htold⟩ := exists_swept hooks h.tracked (h.opened hopen).1
  obtain ⟨hends, hreports⟩ := filter_tellSwept hooks hrounds.silent r.ordinal
  obtain ⟨hends', hreports'⟩ := hopening.quiet.filter
  rw [hops] at hrounds
  -- the sweep does not look at whether the request is closed
  have htold' : (Request.sweep hooks { r with closed := true }).2 =
      (eventsOf rounds).flatMap (tellSwept hooks r.ordinal) := htold
  have hcleaners : (Request.sweep hooks { r with closed := true }).1.dossier.cleaners =
      (Cleanup.after ops).sweep.2 := congrArg (·.sweep.2) hops
  rw [finish_of_open hopen, htold']
  exact ⟨rounds, {
    story := (List.append_assoc _ _ _).symm
    opening := hopening
    swept := hcleaners ▸ hrounds.after
    once := fun id ↦ by
      rw [← List.append_assoc, cleanersOf_append, hopening.cleanersOf_swept hrounds.after]
      exact (congrArg (List.count id ∘ starts) (List.append_nil _)).trans (hrounds.after.once id)
    ends := by
      rw [List.filter_append, List.filter_append, hends, hends']
      rfl
    reports := by
      rw [List.filter_append, List.filter_append, hreports, hreports']
      exact List.append_nil _ }⟩

/-! ## A request ends once -/

/-- The ways to end a request. -/
inductive End where
  /-- Its exchange is declared over. -/
  | finish
  /-- It is refused. -/
  | refuse (reason : Refusal)
  /-- Nobody holds it any more. -/
  | drop

/-- End a request. -/
def endBy (hooks : Hooks) (r : Request σ) : End → Request σ × List Happening
  | .finish => (Request.finish hooks r).2
  | .refuse reason => Request.refuse hooks r reason
  | .drop => Request.drop hooks r

/-- End a request several times. -/
def endAll (hooks : Hooks) (r : Request σ) : List End → Request σ × List Happening
  | [] => (r, [])
  | e :: ends =>
    let (r, told) := r.endBy hooks e
    let (r, more) := endAll hooks r ends
    (r, told ++ more)

/-- A request that is over is not ended again: nothing happens and nothing is told. -/
theorem endAll_of_closed (h : r.closed = true) (ends : List End) :
    r.endAll hooks ends = (r, []) := by
  induction ends with
  | nil => rfl
  | cons e ends ih =>
    have hend : r.endBy hooks e = (r, []) := by
      cases e <;> simp [endBy, Request.finish, Request.refuse, Request.drop, h]
    rw [endAll, hend]
    dsimp only
    rw [ih]
    rfl

end Request

end Turnstile
