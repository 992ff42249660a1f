import Turnstile.Proofs.Request.Account
import Turnstile.Proofs.Request.Refusing

/-!
# What a request gathers for its response

While its program runs, a request gathers headers and cookies in its dossier: those that the
operations carried out add, in order, wherever in the program they stand. It comes to a response in
four ways: its program finishes with one, it stops for an abort, or for a dispatch on a path that
nothing matches, or its body is too large. The response that is started then is this one, with what
was gathered.
-/

namespace Turnstile

/-- The headers that an operation adds to the response to come. -/
def Operation.headers : Operation → Pairs
  | .addHeaders headers => headers
  | _ => []

/-- The cookie that an operation adds to the response to come. -/
def Operation.cookie? : Operation → Option Cookie
  | .addCookie cookie => some cookie
  | _ => none

/-- The headers with which a response is sent when some operations were carried out before: its
own, then the headers they add, and then a header for each cookie they add. -/
def Response.sentHeaders (response : Response) (ops : List Operation) : Pairs :=
  response.headers ++ ops.flatMap Operation.headers ++
    (ops.filterMap Operation.cookie?).map fun c ↦ ("set-cookie", c.headerValue)

theorem Response.sentHeaders_append {op : Operation} (hheaders : op.headers = [])
    (hcookie : op.cookie? = none) (response : Response) (ops : List Operation) :
    response.sentHeaders (ops ++ [op]) = response.sentHeaders ops := by
  rw [sentHeaders, sentHeaders, List.flatMap_append, List.flatMap_singleton, hheaders,
    List.append_nil, List.filterMap_append, List.filterMap_cons_none hcookie, List.filterMap_nil,
    List.append_nil]

/-! ## What is gathered -/

namespace Dossier

variable {d : Dossier} {ops : List Operation}

/-- The headers and cookies are those that some operations add, in order. -/
structure Gathers (d : Dossier) (ops : List Operation) : Prop where
  /-- The headers. -/
  headers : d.headers.toList = ops.flatMap Operation.headers
  /-- The cookies. -/
  cookies : d.cookies.toList = ops.filterMap Operation.cookie?

theorem gathers_new (qos : Qos) (path : String) : (new qos path).Gathers [] := ⟨rfl, rfl⟩

theorem Gathers.congr {d' : Dossier} (h : d.Gathers ops) (hheaders : d'.headers = d.headers)
    (hcookies : d'.cookies = d.cookies) : d'.Gathers ops :=
  ⟨hheaders ▸ h.headers, hcookies ▸ h.cookies⟩

theorem Gathers.assemble (h : d.Gathers ops) (response : Response) :
    (d.assemble response).1.headers = response.sentHeaders ops := by
  rw [Dossier.assemble, Response.sentHeaders, h.headers, h.cookies]

/-- An operation adds to the dossier what it adds to the response to come. -/
theorem Gathers.answer (h : d.Gathers ops) (m : Metadata) (op : Operation) :
    ((d.answer m op).dossier?.getD d).Gathers (ops ++ [op]) := by
  -- all operations but two leave headers and cookies alone
  have quiet {d' : Dossier} (hheaders : d'.headers = d.headers) (hcookies : d'.cookies = d.cookies)
      (hadds : op.headers = []) (hadd : op.cookie? = none) : d'.Gathers (ops ++ [op]) := by
    constructor
    · rw [hheaders, h.headers, List.flatMap_append, List.flatMap_singleton, hadds, List.append_nil]
    · rw [hcookies, h.cookies, List.filterMap_append, List.filterMap_cons_none hadd,
        List.filterMap_nil, List.append_nil]
  cases op with
  | addHeaders headers =>
    refine ⟨?_, ?_⟩
    · rw [List.flatMap_append, ← h.headers]
      simp [Dossier.answer, Reaction.dossier?, Operation.headers]
    · rw [List.filterMap_append, ← h.cookies]
      simp [Dossier.answer, Reaction.dossier?, Operation.cookie?]
  | addCookie cookie =>
    refine ⟨?_, ?_⟩
    · rw [List.flatMap_append, ← h.headers]
      simp [Dossier.answer, Reaction.dossier?, Operation.headers]
    · rw [List.filterMap_append, ← h.cookies]
      simp [Dossier.answer, Reaction.dossier?, Operation.cookie?]
  | invokeCleaner handle =>
    rw [Dossier.answer]
    split <;> exact quiet rfl rfl rfl rfl
  | routePath matcher =>
    rw [Dossier.answer]
    split <;> exact quiet rfl rfl rfl rfl
  | _ => exact quiet rfl rfl rfl rfl

/-- The response that a program comes to where it stopped: it finished with it, or it stops for an
abort, or for a dispatch on a path that nothing matches. -/
def conclusion? (d : Dossier) : Routine.Outcome Operation Value → Option Response
  | .finished (.response response) => some response
  | .suspended (.abort response) _ => some response
  | .suspended (.routePath matcher) _ =>
    match matcher d.path with
    | .miss => some .notFound
    | _ => none
  | _ => none

end Dossier

/-- The response that a body comes to that is too large. -/
def BodyReader.Progress.conclusion? : BodyReader.Progress → Option Response
  | .limitExceeded limit => some (.tooLarge limit)
  | _ => none

/-- The response that a request has come to and that has not been started. -/
def Stage.response? : Stage → Option Response
  | .leaving (.respond response) | .departed (.respond response) => some response
  | _ => none

namespace Request

variable {σ : Type} {r r' : Request σ} {ops : List Operation} {event : IoEvent}

/-- The response that a request comes to with its next move. -/
def conclusion? (r : Request σ) : Option Response :=
  match r.stage, r.program with
  | .running, some p => r.dossier.conclusion? p.run
  | .reading reader _, _ =>
    r.nextEvent?.bind fun (event, _) ↦ (reader.advance event).1.conclusion?
  | _, _ => none

theorem conclusion?_of_isAnswering (h : r.stage.isAnswering = true) : r.conclusion? = none := by
  unfold conclusion?
  split
  next hstage _ => rw [hstage] at h; cases h
  next hstage => rw [hstage] at h; cases h
  · rfl

/-- The operation with which a request comes to a response, if it is one, adds nothing to it. -/
theorem executes?_of_conclusion {response : Response} (h : r.conclusion? = some response) :
    r.executes? = none ∨ r.executes? = some (.abort response) ∨
      ∃ matcher, r.executes? = some (.routePath matcher) ∧ response = .notFound := by
  unfold conclusion? at h
  unfold executes?
  split at h
  next p hstage hprogram =>
    rw [hstage, hprogram]
    dsimp only
    unfold Dossier.conclusion? at h
    split at h
    next hrun =>
      rw [hrun]
      exact .inl rfl
    next hrun =>
      cases h
      rw [hrun]
      exact .inr (.inl rfl)
    next matcher next hrun =>
      split at h
      · cases h
        rw [hrun]
        exact .inr (.inr ⟨matcher, rfl, rfl⟩)
      · cases h
    · cases h
  next hstage =>
    rw [hstage]
    exact .inl rfl
  · cases h

theorem response?_react (next : Value → Program) (reaction : Reaction) :
    (r.react next reaction).1.stage.response? =
      match reaction with
      | .respond response => some response
      | _ => none := by
  cases reaction with
  | act action => cases action <;> rfl
  | _ => rfl

variable [Exchange σ]

theorem Step.underWay {hooks : Hooks} {config : Config} {input : Input} {told : List Happening}
    (h : Step hooks config r input r' told) (hway : r'.stage.isUnderWay = true) :
    r.stage.isUnderWay = true := by
  cases h with
  | stay => exact hway
  | keepRank qos => exact hway
  | rank qos h => exact hway
  | pass h =>
    generalize r.stage = before at h ⊢
    cases h <;> rfl
  | own h =>
    cases h with
    | turn h => rw [h]; rfl
    | depart h => rw [h]; rfl
    | receive h =>
      rcases nextEvent?_eq_some h with ⟨reader, next, box, rest, hstage, -, -, rfl⟩ |
        ⟨writer, box, rest, hstage, -, -, rfl⟩
      · rw [hstage]
        rfl
      · rw [receive] at hway
        simp only [hstage, receiveWrite] at hway
        split at hway <;> cases hway
    | deliver events direction => cases direction <;> exact hway
    | wake h => exact hway
    | forget h => cases hway
    | detach h => exact hway
  | fail h => cases hway
  | finish h => cases hway
  | refuse h => cases hway

theorem depart_of_underWay {maxBodyBytes chunkSize : Nat} {exit : Exit}
    (h : (r.depart maxBodyBytes chunkSize exit).1.stage.isUnderWay = true) :
    (∃ limit next, exit = .readBody limit next) ∧
      (r.depart maxBodyBytes chunkSize exit).1.dossier = r.dossier ∧
      (r.depart maxBodyBytes chunkSize exit).1.stage.response? = none := by
  cases exit with
  | respond response =>
    rw [depart, beginResponse] at h
    dsimp only at h
    split at h <;> cases h
  | fail failure => cases h
  | readBody limit next =>
    refine ⟨⟨limit, next, rfl⟩, ?_⟩
    rw [depart, beginRead]
    split
    split <;> exact ⟨rfl, rfl⟩

theorem gathers_turn (h : r.stage = .running) (hgathers : r.dossier.Gathers ops) :
    r.turn.1.dossier.Gathers (ops ++ r.executes?.toList) := by
  have quiet {d : Dossier} (hd : d = r.dossier) : d.Gathers (ops ++ none.toList) := by
    rw [Option.toList_none, List.append_nil, hd]
    exact hgathers
  unfold turn executes?
  rw [h]
  cases r.program with
  | none => exact quiet rfl
  | some p =>
    dsimp only
    cases p.run with
    | finished value => cases value <;> exact quiet rfl
    | faulted f => exact quiet rfl
    | suspended op next =>
      dsimp only [proceed]
      rw [dossier_react]
      exact hgathers.answer _ op

theorem response?_turn (h : r.stage = .running) : r.turn.1.stage.response? = r.conclusion? := by
  unfold turn conclusion?
  rw [h]
  cases r.program with
  | none => rfl
  | some p =>
    dsimp only
    cases p.run with
    | finished value => cases value <;> rfl
    | faulted f => rfl
    | suspended op next =>
      dsimp only [proceed]
      rw [response?_react]
      cases op with
      | routePath matcher =>
        dsimp only [Dossier.answer, Dossier.conclusion?]
        cases matcher r.dossier.path <;> rfl
      | invokeCleaner handle =>
        dsimp only [Dossier.answer, Dossier.conclusion?]
        cases r.dossier.cleaners.invoke handle with
        | mk outcome cleaners => cases outcome <;> rfl
      | _ => rfl

/-- An event leads to a response if it makes the body too large. -/
theorem response?_receive (h : r.nextEvent? = some (event, r')) :
    (r'.receive event).1.stage.response? = r.conclusion? := by
  rcases nextEvent?_eq_some h with ⟨reader, next, box, rest, hstage, -, -, rfl⟩ |
    ⟨writer, box, rest, hstage, -, -, rfl⟩
  · unfold receive conclusion?
    simp only [hstage, h, Option.bind_some]
    unfold receiveRead
    cases reader.advance event with
    | mk progress reader' => cases progress <;> rfl
  · unfold receive conclusion?
    simp only [hstage]
    unfold receiveWrite
    split <;> rfl

theorem mem_answersOf {told : List Happening} {status : Nat} {headers : Pairs} {reply : Reply}
    (h : .startResponse status headers reply ∈ callsOf told) :
    .response status headers ∈ answersOf told := by
  obtain ⟨happening, hmem, hcall⟩ := List.mem_filterMap.mp h
  refine List.mem_filterMap.mpr ⟨happening, hmem, ?_⟩
  cases happening with
  | call c =>
    cases hcall
    rfl
  | _ => cases hcall

end Request

/-! ## What is written -/

namespace Transcript

variable {was : Stage → List Call → Prop} {t : Transcript} {stage : Stage} {calls : List Call}

theorem Orderly.mem_opening (h : t.Orderly) {c : Call} (hc : c ∈ t.calls)
    (hkind : c.kind = .startResponse) : c ∈ t.opening := by
  rw [Transcript.calls, body, early, List.mem_append, List.mem_append, List.mem_append,
    List.mem_append] at hc
  rcases hc with (((hc | hc) | hc) | hc) | hc
  · rw [h.reads c hc] at hkind
    cases hkind
  · exact hc
  · rcases h.pieces c hc with hpiece | hpiece <;> rw [hpiece] at hkind <;> cases hkind
  · rw [h.fallbacks c hc] at hkind
    cases hkind
  · rcases h.ending_kind hc with hend | hend <;> rw [hend] at hkind <;> cases hkind

/-- A request that was answered without an error has written the body of the response that it had
come to. -/
theorem Fits.written (h : t.Fits was stage calls) (hstage : stage.isConcluding = true)
    (hopening : t.opening ≠ []) (hfallback : ∀ c ∈ calls, c.kind ≠ .sendFallback) :
    ∃ response early, was (.departed (.respond response)) early ∧
      written calls = response.body := by
  have horderly := h.orderly
  have hat := h.stage
  have hcalls := h.calls
  subst hcalls
  have hfallbacks : t.fallbacks = [] := by
    refine List.eq_nil_iff_forall_not_mem.mpr fun c hc ↦ ?_
    have hmem : c ∈ t.calls := List.mem_append_left _ (List.mem_append_right _ hc)
    exact hfallback c hmem (horderly.fallbacks c hc)
  have hsettled : t.Settled was ∧ written t.ending = [] := by
    have hgone (ending : Ending) (hat : t.At was (.gone ending)) :
        t.Settled was ∧ written t.ending = [] := by
      rcases hat with ⟨fault?, hending, hsettled⟩ | ⟨reason, fault?, hending⟩
      · exact ⟨hsettled, by rw [hending]; rfl⟩
      · -- nothing was started for a request that was refused
        rcases horderly.ending with hnone | ⟨_, hcomplete⟩ | ⟨-, hnone, -⟩
        · rw [hending] at hnone
          cases hnone
        · rw [hending] at hcomplete
          cases hcomplete
        · exact absurd hnone hopening
    unfold Stage.isConcluding at hstage
    split at hstage
    · exact ⟨hat.2, by rw [hat.1]; rfl⟩
    · exact hgone _ hat
    · exact hgone _ hat
    · cases hstage
  obtain ⟨response, hwas, -, hbody⟩ := hsettled.1.resolve_right (absurd hfallbacks)
  rw [List.append_nil] at hbody
  refine ⟨response, t.reads, hwas, ?_⟩
  rw [Transcript.calls, written_append, hsettled.2, List.append_nil,
    horderly.written_body hfallbacks, hbody]

end Transcript

end Turnstile
