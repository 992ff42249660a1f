import Turnstile.Proofs.Cleanup.Ran
import Turnstile.Proofs.Request.Answer
import Turnstile.Proofs.Step.Typing

/-!
# A request keeps the kind of its program

A program that yields responses is taken out by a worker, run, answered and put back, and it waits
for its body beside the reader. Wherever it goes on, it goes on with a value of the documented kind
of what it asked (`Dossier.fits_answer`), so what is put back still yields responses, and so does
what waits for the body. All of this is one property of a request, `Request.Typed`, which every move
keeps; what cannot happen to a request that has it is listed in `Request.KindSafe`.
-/

namespace Turnstile

/-! ## Cleaners -/

namespace Cleanup

variable {N : Type} {c c' : Cleanup N}

/-- Whatever the cleaners that wait raise is their own. -/
def IsOwn (c : Cleanup N) : Prop :=
  ∀ (id : Nat) (action : Cleaner N), c.waiting[id]? = some action → action.IsOwn

theorem isOwn_empty : (empty : Cleanup N).IsOwn := by
  intro id action h
  rw [empty, Std.TreeMap.getElem?_emptyc] at h
  cases h

theorem IsOwn.register (h : c.IsOwn) {action : Cleaner N} (own : action.IsOwn) :
    (c.register action).IsOwn := by
  intro id action' hid
  rw [Cleanup.register, Std.TreeMap.getElem?_insert] at hid
  split at hid
  · cases hid
    exact own
  · exact h id action' hid

theorem IsOwn.ran (h : c.IsOwn) {allowed : Nat → Prop} {told : List (Event N)}
    (hran : Ran allowed c c' told) : c'.IsOwn :=
  fun id action hid ↦ h id action (hran.waiting hid)

theorem IsOwn.fire (h : c.IsOwn) (depth id : Nat) : (fire depth id c).2.IsOwn :=
  let ⟨_, hran⟩ := ran_fire depth id c
  h.ran hran

theorem isOwn_of_perform {fire : Nat → Cleanup N → Except Fault Bool × Cleanup N}
    (hfire : ∀ id c, c.IsOwn → (fire id c).2.IsOwn ∧ ∀ f, (fire id c).1 = .error f → f.IsOwn)
    {script : Cleaner N} (own : script.IsOwn) (h : c.IsOwn) {f : Fault}
    (herror : (perform fire script c).1 = .error f) : f.IsOwn := by
  induction script generalizing c with
  | done => cases herror
  | note n next ih => exact ih (c := c.log (.note n)) own h herror
  | fail fault =>
    cases herror
    exact own
  | invoke id next ih =>
    obtain ⟨hrest, hfault⟩ := hfire id c h
    rw [perform] at herror
    split at herror
    next started c' hfired =>
      rw [hfired] at hrest
      exact ih started (own started) hrest herror
    next fault c' hfired =>
      cases herror
      exact hfault _ (by rw [hfired])

theorem IsOwn.of_fire (h : c.IsOwn) {depth id : Nat} {f : Fault}
    (herror : (Cleanup.fire depth id c).1 = .error f) : f.IsOwn := by
  induction depth generalizing id c f with
  | zero => cases herror
  | succ depth ih =>
    rw [Cleanup.fire] at herror
    cases hid : c.waiting[id]? with
    | none =>
      rw [start_eq_none hid] at herror
      cases herror
    | some action =>
      rw [start_eq_some hid] at herror
      have hstarted : ((c.without id).log (.started id)).IsOwn :=
        h.ran (ran_start c (Std.TreeMap.isSome_getElem?_iff_mem.mp (by rw [hid]; rfl)))
      have hperform (f : Fault) := isOwn_of_perform (f := f)
        (fun id c hc ↦ ⟨hc.fire depth id, fun f ↦ ih hc⟩) (h id action hid) hstarted
      dsimp only at herror
      split at herror
      next => cases herror
      next fault c' hfailed =>
        cases herror
        exact hperform _ (by rw [hfailed])

theorem IsOwn.sweepBelow (h : c.IsOwn) (depth below ran : Nat) :
    (Cleanup.sweepBelow depth below ran c).2.IsOwn := by
  induction below generalizing ran c with
  | zero => exact h
  | succ id ih =>
    have hfire := h.fire depth id
    rw [Cleanup.sweepBelow]
    split
    next c' hfired =>
      rw [hfired] at hfire
      exact ih hfire _
    next c' hfired =>
      rw [hfired] at hfire
      exact ih hfire _
    next fault c' hfired =>
      rw [hfired] at hfire
      exact ih (c := c'.log (.failed id fault)) hfire _

theorem IsOwn.sweep (h : c.IsOwn) : c.sweep.2.IsOwn := by
  unfold Cleanup.sweep
  split
  · exact h
  · exact IsOwn.sweepBelow (c := { c with swept := true }) h _ _ _

end Cleanup

/-! ## Answers -/

/-- The continuation goes on with every value of kind `j`, and yields responses then. -/
def Program.Awaits (j : Kind) (next : Value → Program) : Prop :=
  ∀ v, v.Is j → Program.HasKind .response (next v)

/-- What an operation leads to goes on with a value of kind `j`, if it goes on. -/
def Reaction.Fits (j : Kind) : Reaction → Prop
  | .resume v d => v.Is j ∧ d.cleaners.IsOwn
  | .enter p d => p.HasKind j ∧ d.cleaners.IsOwn
  | .respond _ => True
  | .readBody _ => j = .bytes
  | .fault f d => f.IsOwn ∧ d.cleaners.IsOwn
  | .act action => (Operation.act action).answer = j

theorem Dossier.fits_answer {j : Kind} {op : Operation} (hop : Program.HasKind j (.suspend op))
    (m : Metadata) {d : Dossier} (hd : d.cleaners.IsOwn) : (d.answer m op).Fits j := by
  cases hop with
  | abort response => trivial
  | addCleaner own => exact ⟨rfl, hd.register own⟩
  | continueWith hp => exact ⟨hp, hd⟩
  | routePath hits faults =>
    rw [answer]
    split
    · trivial
    next rest p hmatch => exact ⟨hits _ _ _ hmatch, hd⟩
    next f hmatch => exact ⟨faults _ _ hmatch, hd⟩
  | ask plain =>
    cases op with
    | invokeCleaner handle =>
      have hinvoked := hd.fire d.cleaners.pending handle
      rw [answer]
      split
      next c hok =>
        rw [← Cleanup.invoke, hok] at hinvoked
        exact ⟨rfl, hinvoked⟩
      next f c herror =>
        rw [← Cleanup.invoke, herror] at hinvoked
        exact ⟨hd.of_fire (by rw [← Cleanup.invoke, herror]), hinvoked⟩
    | readBody limit => rfl
    | act action => rfl
    | abort | addCleaner | routePath | continueWith => cases plain
    | _ => exact ⟨rfl, hd⟩

/-! ## Requests -/

/-- The failure is none of a value of the wrong kind. -/
def Failure.IsOwn : Failure → Prop
  | .noResponse => False
  | .program f => f.IsOwn
  | _ => True

/-- No such failure reads as if a program had finished without a response. -/
theorem Failure.IsOwn.message_ne {failure : Failure} (h : failure.IsOwn)
    (kindName : Kind → String) :
    failure.message kindName ≠ "request program finished without a Response" := by
  unfold Failure.message
  cases failure with
  | noResponse => exact h.elim
  | _ => simp [← String.toList_inj]

/-- What waits for the body yields responses, and the failure is none of a value of the wrong
kind. -/
def Exit.Typed : Exit → Prop
  | .respond _ => True
  | .readBody _ next => Program.Awaits .bytes next
  | .fail failure => failure.IsOwn

/-- What a stage carries yields responses, and its failure is none of a value of the wrong kind. -/
def Stage.Typed : Stage → Prop
  | .leaving exit | .departed exit => exit.Typed
  | .reading _ next => Program.Awaits .bytes next
  | .failing failure => failure.IsOwn
  | _ => True

namespace Request

variable {σ : Type} {r r' start : Request σ} {hooks : Hooks} {config : Config} {input : Input}
  {inputs : List Input} {told : List Happening} {next : Value → Program} {j : Kind}

/-- The programs that a request holds yield responses, and it did not fail because of a value of
the wrong kind. -/
structure Typed (r : Request σ) : Prop where
  /-- Its program yields responses. -/
  program : ∀ p : Program, r.program = some p → p.HasKind .response
  /-- So does what its stage carries. -/
  stage : r.stage.Typed
  /-- Its cleaners raise what is their own. -/
  cleaners : r.dossier.cleaners.IsOwn

namespace Typed

theorem restage (h : r.Typed) (stage : Stage) (hstage : stage.Typed) : { r with stage }.Typed where
  program := h.program
  stage := hstage
  cleaners := h.cleaners

theorem keep (h : r.Typed) (stage : Stage) (hstage : stage.Typed) {p : Program}
    (hp : p.HasKind .response) : (r.keep stage p).Typed where
  program p heq := by
    cases heq
    exact hp
  stage := hstage
  cleaners := h.cleaners

theorem resume (h : r.Typed) (stage : Stage) (hstage : stage.Typed)
    (hnext : Program.Awaits j next) {v : Value} (hv : v.Is j) : (r.resume stage next v).Typed :=
  h.keep stage hstage (.flatMap (.pure hv) hnext)

theorem takeOver (h : r.Typed) {d : Dossier} (hd : d.cleaners.IsOwn) : (r.takeOver d).1.Typed where
  program := h.program
  stage := h.stage
  cleaners := hd

theorem act (h : r.Typed) {action : Action}
    (hnext : Program.Awaits (Operation.act action).answer next) : (r.act next action).1.Typed := by
  cases action with
  | note text => exact h.resume .running trivial hnext rfl
  | gate => exact h.resume .gated trivial hnext rfl
  | look handle => exact h.resume .running trivial hnext rfl

theorem react (h : r.Typed) (hnext : Program.Awaits j next) {reaction : Reaction}
    (hfits : reaction.Fits j) : (r.react next reaction).1.Typed := by
  cases reaction with
  | resume v d => exact (h.takeOver hfits.2).resume .running trivial hnext hfits.1
  | enter p d => exact (h.takeOver hfits.2).keep .running trivial (.flatMap hfits.1 hnext)
  | respond response => exact h.restage _ trivial
  | readBody limit =>
    cases hfits
    exact h.restage _ hnext
  | fault f d => exact (h.takeOver hfits.2).restage _ hfits.1
  | act action =>
    cases hfits
    exact h.act hnext

variable [Exchange σ]

theorem proceed (h : r.Typed) {outcome : Routine.Outcome Operation Value}
    (houtcome : Program.LeavesKind .response outcome) : (r.proceed outcome).1.Typed := by
  cases outcome with
  | finished v =>
    obtain ⟨response, -, rfl⟩ := Kind.exists_inject_of_is houtcome
    exact h.restage _ trivial
  | faulted f => exact h.restage _ houtcome
  | suspended op next =>
    obtain ⟨j, hop, hnext⟩ := houtcome
    exact h.react hnext (Dossier.fits_answer hop _ h.cleaners)

theorem turn (h : r.Typed) : r.turn.1.Typed := by
  unfold Request.turn
  split
  · exact h.restage _ trivial
  next p hp =>
    have htaken : { r with program := none }.Typed := ⟨nofun, h.stage, h.cleaners⟩
    exact htaken.proceed (h.program p hp).run

theorem depart (h : r.Typed) (maxBodyBytes chunkSize : Nat) {exit : Exit} (hexit : exit.Typed) :
    (r.depart maxBodyBytes chunkSize exit).1.Typed := by
  cases exit with
  | respond response =>
    rw [Request.depart, beginResponse]
    split
    next response' d hassemble =>
      cases hassemble
      split
      split <;> exact ⟨h.program, trivial, h.cleaners⟩
  | readBody limit next =>
    rw [Request.depart, beginRead]
    split
    split
    · exact ⟨h.program, trivial, h.cleaners⟩
    · exact ⟨h.program, hexit, h.cleaners⟩
  | fail failure => exact h.restage _ hexit

omit [Exchange σ] in
theorem receiveRead (h : r.Typed) (reader : BodyReader) (hnext : Program.Awaits .bytes next)
    (event : IoEvent) : (r.receiveRead reader next event).Typed := by
  unfold Request.receiveRead
  split
  · exact h.restage _ hnext
  · have hended : (r.endRead .returning).Typed := ⟨h.program, trivial, h.cleaners⟩
    exact hended.resume .returning trivial hnext rfl
  · exact ⟨h.program, trivial, h.cleaners⟩
  · exact ⟨h.program, trivial, h.cleaners⟩

theorem receiveWrite (h : r.Typed) (writer : ResponseWriter) (event : IoEvent) :
    (r.receiveWrite writer event).1.Typed := by
  unfold Request.receiveWrite
  split <;> exact ⟨h.program, trivial, h.cleaners⟩

theorem receive (h : r.Typed) (event : IoEvent) : (r.receive event).1.Typed := by
  have hstage := h.stage
  unfold Request.receive
  split
  next reader next heq =>
    rw [heq] at hstage
    exact h.receiveRead reader hstage event
  · exact h.receiveWrite _ event
  · exact h

omit [Exchange σ] in
theorem sweep (h : r.Typed) : (sweep hooks r).1.Typed :=
  ⟨h.program, h.stage, h.cleaners.sweep⟩

end Typed

variable [Exchange σ]

theorem typed_new (ordinal : Nat) (qos : Qos) (exchange : σ) {program : Program}
    (h : program.HasKind .response) : (new ordinal qos exchange program).Typed where
  program p heq := by
    cases heq
    exact h
  stage := trivial
  cleaners := Cleanup.isOwn_empty

omit [Exchange σ] in
theorem Typed.drop (h : r.Typed) : (Request.drop hooks r).1.Typed := by
  unfold Request.drop
  split
  · exact h
  · exact sweep ⟨h.program, h.stage, h.cleaners⟩

omit [Exchange σ] in
theorem Typed.pass (h : r.Typed) {stage : Stage} (hpass : Passes r.stage stage) : stage.Typed := by
  have hstage := h.stage
  generalize r.stage = before at hpass hstage
  cases hpass with
  | left exit => exact hstage
  | _ => trivial

theorem Own.typed (h : Own hooks config r input r' told) (hr : r.Typed) : r'.Typed := by
  cases h with
  | turn hstage => exact hr.turn
  | depart hstage =>
    have hexit := hr.stage
    rw [hstage] at hexit
    exact hr.depart _ _ hexit
  | receive hevent =>
    have hpopped (reads writes : Option Inbox) : { r with reads, writes }.Typed :=
      ⟨hr.program, hr.stage, hr.cleaners⟩
    rcases nextEvent?_eq_some hevent with ⟨reader, next, box, rest, -, -, -, rfl⟩ |
      ⟨writer, box, rest, -, -, -, rfl⟩
    · exact (hpopped (some rest) r.writes).receive _
    · exact (hpopped r.reads (some rest)).receive _
  | deliver events direction => cases direction <;> exact ⟨hr.program, hr.stage, hr.cleaners⟩
  | wake hwake => exact ⟨hr.program, hr.stage, hr.cleaners⟩
  | forget hwaiting =>
    have hclosed : { r with reads := none, writes := none }.Typed :=
      ⟨hr.program, hr.stage, hr.cleaners⟩
    exact hclosed.drop.restage _ trivial
  | detach hwaiting => exact ⟨hr.program, hr.stage, hr.cleaners⟩

/-- Every move leaves a request that holds programs that yield responses. -/
theorem Step.typed (h : Step hooks config r input r' told) (hr : r.Typed) : r'.Typed := by
  cases h with
  | stay => exact hr
  | keepRank qos => exact hr
  | rank qos hqueued => exact ⟨hr.program, hr.stage, hr.cleaners⟩
  | pass hpass => exact hr.restage _ (hr.pass hpass)
  | own h => exact h.typed hr
  | fail hstage =>
    have hsent := sendError_frame r (hooks.errorResponse r.ordinal r.metadata)
    unfold Request.fail
    dsimp only
    rw [hsent]
    exact ⟨hr.program, trivial, hr.cleaners⟩
  | finish hstage =>
    unfold Request.finish
    split
    · exact hr.restage _ trivial
    · exact ⟨hr.program, trivial, hr.cleaners.sweep⟩
  | refuse hstage =>
    unfold Request.refuse
    split
    · exact hr.restage _ trivial
    · dsimp only
      split
      · exact ⟨hr.program, trivial, hr.cleaners⟩
      · exact ⟨hr.program, trivial, hr.cleaners.sweep⟩

theorem Run.typed (h : Run hooks config start inputs r told) (hstart : start.Typed) : r.Typed := by
  induction h with
  | start => exact hstart
  | step _ s ih => exact s.typed ih

/-! ## What cannot happen -/

/-- The program of a request is resumed with values of the kinds it awaits and no others, and ends
with a response, if it ends with a value. -/
structure KindSafe (r : Request σ) : Prop where
  /-- A program that ends with a value ends with a response. -/
  finishes : ∀ p v, r.program = some p → p.run = .finished v → ∃ response, v = .response response
  /-- No continuation that the engine applies meets a value of another kind. -/
  breaks : ∀ p fault, r.program = some p → p.run = .faulted fault → ∀ k, fault ≠ .wrongKind k
  /-- A question is answered with a value of its documented kind, which is what follows awaits. -/
  goesOn : ∀ p op next, r.program = some p → p.run = .suspended op next →
    ∃ j, Program.HasKind j (.suspend op) ∧ Program.Awaits j next ∧
      (r.dossier.answer r.metadata op).Fits j
  /-- What waits for the body awaits bytes. -/
  reads : ∀ reader next, r.stage = .reading reader next → Program.Awaits .bytes next
  /-- The request did not fail because its program met or ended with a value of another kind. -/
  fails : ∀ failure, r.stage = .leaving (.fail failure) ∨ r.stage = .departed (.fail failure) ∨
    r.stage = .failing failure → failure ≠ .noResponse ∧ ∀ k, failure ≠ .program (.wrongKind k)

theorem Typed.kindSafe (h : r.Typed) : r.KindSafe where
  finishes p v hp hrun := by
    have hleaves := (h.program p hp).run
    rw [hrun] at hleaves
    obtain ⟨response, -, heq⟩ := Kind.exists_inject_of_is hleaves
    exact ⟨response, heq⟩
  breaks p fault hp hrun := by
    have hleaves := (h.program p hp).run
    rw [hrun] at hleaves
    exact hleaves
  goesOn p op next hp hrun := by
    have hleaves := (h.program p hp).run
    rw [hrun] at hleaves
    obtain ⟨j, hop, hnext⟩ := hleaves
    exact ⟨j, hop, hnext, Dossier.fits_answer hop r.metadata h.cleaners⟩
  reads reader next hstage := by
    have hcarried := h.stage
    rw [hstage] at hcarried
    exact hcarried
  fails failure hstage := by
    have hown : failure.IsOwn := by
      have hcarried := h.stage
      rcases hstage with hstage | hstage | hstage <;> rw [hstage] at hcarried <;> exact hcarried
    constructor
    · rintro rfl
      exact hown
    · rintro k rfl
      exact hown k rfl

theorem Run.isOwn_of_error (h : Run hooks config start inputs r told) (hstart : start.Typed)
    {message : String} (hmessage : .error message ∈ answersOf told) :
    ∃ failure : Failure, failure.IsOwn ∧ message = failure.message hooks.kindName := by
  induction h with
  | start => cases hmessage
  | step h s ih =>
    rw [answersOf_append, List.mem_append] at hmessage
    rcases hmessage with hbefore | hnow
    · exact ih hbefore
    rcases s.answers with hnone | ⟨response, -, hsome⟩ | ⟨failure, hstage, hsome⟩
    · rw [hnone] at hnow
      cases hnow
    · rw [hsome, List.mem_singleton] at hnow
      cases hnow
    · rw [hsome, List.mem_singleton] at hnow
      cases hnow
      have hcarried := (h.typed hstart).stage
      rw [hstage] at hcarried
      exact ⟨failure, hcarried, rfl⟩

end Request

end Turnstile
