import Turnstile.Proofs.Request.Calls
import Turnstile.Proofs.Request.Refusal

/-!
# The calls that a request makes

Which phase the calls of a request have come to is read off its stage, and each move adds to the
calls what its stage allows. Two facts go back to moments that have passed: that an error is sent
because the request failed, and that the pieces written make up the response its program ended
with. So the invariant is stated over a record of such moments, of which it only uses that the
current one is in it.
-/

namespace Turnstile

open Request (callsOf)

variable {σ : Type} {hooks : Hooks} {config : Config} {r r' : Request σ} {input : Request.Input}
  {told more : List Happening} {was : Stage → List Call → Prop} {t : Transcript} {calls : List Call}

/-! ## Phases and stages -/

namespace Transcript

/-- The program ended with a response, which was started and written but for `unsent`. -/
def Sent (was : Stage → List Call → Prop) (t : Transcript) (unsent : Bytes) : Prop :=
  ∃ response, was (.departed (.respond response)) t.reads ∧ t.opening ≠ [] ∧
    written t.pieces ++ unsent = response.body

/-- The response was written, or an error was sent. -/
def Settled (was : Stage → List Call → Prop) (t : Transcript) : Prop :=
  t.Sent was [] ∨ t.fallbacks ≠ []

/-- The phases that a stage allows. -/
def At (was : Stage → List Call → Prop) (t : Transcript) : Stage → Prop
  | .writing writer => t.fallbacks = [] ∧ t.ending = [] ∧ t.Sent was writer.unsent
  | .failing _ | .lost => t.fallbacks = [] ∧ t.ending = []
  | .finishing => t.ending = [] ∧ t.Settled was
  | .gone _ => (∃ fault?, t.ending = [.complete fault?] ∧ t.Settled was) ∨
      ∃ reason fault?, t.ending = [.reject reason fault?]
  | _ => t.opening = [] ∧ t.fallbacks = [] ∧ t.ending = []

/-- The calls made so far are orderly and have come to a phase that the stage allows. -/
structure Fits (was : Stage → List Call → Prop) (stage : Stage) (calls : List Call)
    (t : Transcript) : Prop where
  /-- The calls are those of the phases. -/
  calls : calls = t.calls
  /-- The phases are orderly. -/
  orderly : t.Orderly
  /-- The stage allows them. -/
  stage : t.At was stage
  /-- Errors are sent after a failure. -/
  failed : t.fallbacks ≠ [] → ∃ failure, was (.failing failure) t.early

theorem calls_reads (reads : List Call) : (⟨reads, [], [], [], []⟩ : Transcript).calls = reads := by
  simp [Transcript.calls, body, early]

theorem calls_opening (reads opening : List Call) :
    (⟨reads, opening, [], [], []⟩ : Transcript).calls = reads ++ opening := by
  simp [Transcript.calls, body, early]

theorem Fits.opening (h : t.Fits was r.stage calls)
    (hat : t.opening = [] ∧ t.fallbacks = [] ∧ t.ending = []) :
    t = ⟨calls, [], [], [], []⟩ ∧ ∀ c ∈ calls, c.kind = .readBody := by
  obtain ⟨hopening, hfallbacks, hending⟩ := hat
  have hpieces := h.orderly.started hopening
  have hreads := h.orderly.reads
  have hcalls := h.calls
  obtain ⟨reads, opening, pieces, fallbacks, ending⟩ := t
  simp only at hopening hfallbacks hending hpieces
  subst hopening hfallbacks hending hpieces
  rw [calls_reads] at hcalls
  subst hcalls
  exact ⟨rfl, hreads⟩

theorem orderly_reads {reads : List Call} (h : ∀ c ∈ reads, c.kind = .readBody) :
    (⟨reads, [], [], [], []⟩ : Transcript).Orderly where
  reads := h
  opening := .inl rfl
  started _ := rfl
  pieces := by simp
  asks := asks_of_kind (by simp)
  fallbacks := by simp
  fallbacks_le := by simp
  ending := .inl rfl

end Transcript

/-! ## Moves that make no calls -/

namespace Request

open Transcript

theorem fits_quiet {stage : Stage} (ht : t.Fits was r.stage (callsOf told))
    (hmore : callsOf more = []) (hstage : t.At was r.stage → t.At was stage) :
    ∃ t' : Transcript, t'.Fits was stage (callsOf (told ++ more)) := by
  refine ⟨t, ?_, ht.orderly, hstage ht.stage, ht.failed⟩
  rw [callsOf_append, hmore, List.append_nil]
  exact ht.calls

theorem callsOf_sweep (hooks : Hooks) (r : Request σ) :
    callsOf (Request.sweep hooks r).2 = [] := by
  refine List.filterMap_eq_nil_iff.mpr fun happening h ↦ ?_
  obtain ⟨event, -, hevent⟩ := List.mem_flatMap.mp h
  cases event with
  | failed id fault =>
    simp only [tellSwept, List.mem_cons, List.not_mem_nil, or_false] at hevent
    rcases hevent with rfl | rfl <;> rfl
  | _ =>
    rw [tellSwept, List.mem_singleton] at hevent
    · subst hevent
      rfl
    · simp

theorem callsOf_drop (hooks : Hooks) (r : Request σ) : callsOf (Request.drop hooks r).2 = [] := by
  unfold Request.drop
  split
  · rfl
  · exact callsOf_sweep hooks _

theorem callsOf_react (r : Request σ) (next : Value → Program) (reaction : Reaction) :
    callsOf (r.react next reaction).2 = [] := by
  cases reaction with
  | resume v d => exact callsOf_map_cleaner _
  | enter p d => exact callsOf_map_cleaner _
  | fault f d => exact callsOf_map_cleaner _
  | act action => cases action <;> rfl
  | _ => rfl

variable [Exchange σ]

theorem callsOf_turn (r : Request σ) : callsOf r.turn.2 = [] := by
  unfold turn
  split
  · rfl
  next p hp =>
    cases p.run with
    | finished value => cases value <;> rfl
    | faulted f => rfl
    | suspended op next => exact callsOf_react _ next _

/-! ## Moves that make calls -/

theorem fits_depart {exit : Exit} (maxBodyBytes chunkSize : Nat)
    (hstage : r.stage = .departed exit) (hwas : was r.stage (callsOf told))
    (ht : t.Fits was r.stage (callsOf told)) :
    ∃ t' : Transcript, t'.Fits was (r.depart maxBodyBytes chunkSize exit).1.stage
      (callsOf (told ++ (r.depart maxBodyBytes chunkSize exit).2)) := by
  have hat := ht.stage
  rw [hstage] at hat hwas
  obtain ⟨-, hreads⟩ := ht.opening hat
  rw [callsOf_append]
  cases exit with
  | respond response =>
    unfold depart beginResponse
    dsimp only [Dossier.assemble]
    have horderly (status : Nat) (headers : Pairs) (reply : Reply) :
        (⟨callsOf told, [.startResponse status headers reply], [], [], []⟩ : Transcript).Orderly :=
      { orderly_reads hreads with
        opening := .inr ⟨status, headers, reply, rfl⟩
        started := fun _ ↦ rfl
        ending := .inl rfl }
    split
    next e herror =>
      exact ⟨_, (calls_opening _ _).symm, horderly _ _ _, ⟨rfl, rfl⟩, fun h ↦ absurd rfl h⟩
    next hnone =>
      exact ⟨_, (calls_opening _ _).symm, horderly _ _ _,
        ⟨rfl, rfl, response, hwas, List.cons_ne_nil _ _, rfl⟩, fun h ↦ absurd rfl h⟩
  | readBody limit next =>
    unfold depart beginRead
    have horderly (reply : Reply) :
        (⟨callsOf told ++ [.readBody reply], [], [], [], []⟩ : Transcript).Orderly :=
      orderly_reads fun c hc ↦ by
        rcases List.mem_append.mp hc with hc | hc
        · exact hreads c hc
        · rw [List.mem_singleton.mp hc, Call.kind]
    dsimp only
    split
    next e herror =>
      exact ⟨_, (calls_reads _).symm, horderly _, ⟨rfl, rfl⟩, fun h ↦ absurd rfl h⟩
    next hnone =>
      exact ⟨_, (calls_reads _).symm, horderly _, ⟨rfl, rfl, rfl⟩, fun h ↦ absurd rfl h⟩
  | fail failure =>
    refine ⟨⟨callsOf told, [], [], [], []⟩, ?_, orderly_reads hreads, ⟨rfl, rfl⟩,
      fun h ↦ absurd rfl h⟩
    rw [calls_reads]
    exact List.append_nil _

theorem fits_receive {event : IoEvent} {r₀ : Request σ} (h : r.nextEvent? = some (event, r₀))
    (ht : t.Fits was r.stage (callsOf told)) :
    ∃ t' : Transcript, t'.Fits was (r₀.receive event).1.stage
      (callsOf (told ++ (r₀.receive event).2)) := by
  rcases nextEvent?_eq_some h with ⟨reader, next, box, rest, hstage, -, -, rfl⟩ |
    ⟨writer, box, rest, hstage, -, -, rfl⟩
  · rw [receive]
    simp only [hstage]
    refine fits_quiet ht rfl fun hat ↦ ?_
    rw [hstage] at hat
    unfold receiveRead
    split
    · exact hat
    · exact hat
    · exact hat
    · exact hat.2
  · rw [receive]
    simp only [hstage]
    obtain ⟨hkinds, hasks, hwritten, hdone⟩ := writer.advance_calls event r.exchange
    have hat := ht.stage
    rw [hstage] at hat
    obtain ⟨hfallbacks, hending, response, hresponse, hopening, hbody⟩ := hat
    have horderly := ht.orderly
    have hcalls := ht.calls
    obtain ⟨reads, opening, pieces, fallbacks, ending⟩ := t
    simp only at hfallbacks hending hopening hbody hresponse
    subst hfallbacks hending
    -- the pieces written now come behind those written before
    have hfits (calls : List Call) (hkinds : ∀ c ∈ calls, c.kind = .isReady ∨ c.kind = .write)
        (hasks : Asks calls) {stage : Stage}
        (hstage : At was ⟨reads, opening, pieces ++ calls, [], []⟩ stage) :
        ∃ t' : Transcript, t'.Fits was stage (callsOf (told ++ calls.map .call)) := by
      refine ⟨⟨reads, opening, pieces ++ calls, [], []⟩, ?_, { horderly with
        started := fun hnone ↦ absurd hnone hopening
        pieces := ?_
        asks := horderly.asks.append hasks
        ending := .inl rfl }, hstage, fun h ↦ absurd rfl h⟩
      · rw [callsOf_append, callsOf_map_call, hcalls]
        simp [Transcript.calls, body, early]
      · intro c hc
        exact (List.mem_append.mp hc).elim (horderly.pieces c) (hkinds c)
    have hsent (calls : List Call) (unsent : Bytes) (hwritten : written calls ++ unsent =
        writer.unsent) : Sent was ⟨reads, opening, pieces ++ calls, [], []⟩ unsent := by
      refine ⟨response, hresponse, hopening, ?_⟩
      rw [written_append, List.append_assoc, hwritten, hbody]
    unfold receiveWrite
    split
    next writer' exchange' calls hadvance =>
      rw [hadvance] at hkinds hasks hwritten
      exact hfits calls hkinds hasks ⟨rfl, rfl, hsent calls writer'.unsent hwritten⟩
    next writer' exchange' calls hadvance =>
      rw [hadvance] at hkinds hasks hwritten hdone
      have hnone := hdone rfl
      rw [hnone] at hwritten
      exact hfits calls hkinds hasks ⟨rfl, .inl (hsent calls [] hwritten)⟩
    next e writer' exchange' calls hadvance =>
      rw [hadvance] at hkinds hasks
      exact hfits calls hkinds hasks ⟨rfl, rfl⟩

theorem callsOf_sendError (r : Request σ) (response : Response) :
    (∀ c ∈ callsOf (r.sendError response).2, c.kind = .sendFallback) ∧
      (callsOf (r.sendError response).2).length ≤ 2 ∧ callsOf (r.sendError response).2 ≠ [] := by
  unfold sendError
  split
  split
  · simp [callsOf, Happening.call?, Call.kind]
  · split
    simp [callsOf, Happening.call?, Call.kind]

theorem fits_fail {failure : Failure} (hstage : r.stage = .failing failure)
    (hwas : was r.stage (callsOf told)) (ht : t.Fits was r.stage (callsOf told)) :
    ∃ t' : Transcript, t'.Fits was (Request.fail hooks r failure).1.stage
      (callsOf (told ++ (Request.fail hooks r failure).2)) := by
  obtain ⟨hkinds, hle, hne⟩ := callsOf_sendError r (hooks.errorResponse r.ordinal r.metadata)
  have hat := ht.stage
  rw [hstage] at hat hwas
  obtain ⟨hfallbacks, hending⟩ := hat
  have horderly := ht.orderly
  have hcalls := ht.calls
  obtain ⟨reads, opening, pieces, fallbacks, ending⟩ := t
  simp only at hfallbacks hending
  subst hfallbacks hending
  have hearly : callsOf told = reads ++ opening ++ pieces := by
    simpa [Transcript.calls, body, early] using hcalls
  refine ⟨⟨reads, opening, pieces,
    callsOf (r.sendError (hooks.errorResponse r.ordinal r.metadata)).2, []⟩, ?_, { horderly with
      fallbacks := hkinds
      fallbacks_le := hle
      ending := .inl rfl }, ⟨rfl, .inr hne⟩, fun _ ↦ ⟨failure, ?_⟩⟩
  · have htold : callsOf (Request.fail hooks r failure).2 =
        callsOf (r.sendError (hooks.errorResponse r.ordinal r.metadata)).2 := rfl
    rw [callsOf_append, htold, hearly]
    simp [Transcript.calls, body, early]
  · rw [hearly] at hwas
    exact hwas

theorem fits_finish {ending : Ending} (hstage : r.stage = .finishing) (hopen : r.closed = false)
    (ht : t.Fits was r.stage (callsOf told)) :
    ∃ t' : Transcript, t'.Fits was (.gone ending)
      (callsOf (told ++ (Request.finish hooks r).2.2)) := by
  have hat := ht.stage
  rw [hstage] at hat
  obtain ⟨hending, hsettled⟩ := hat
  rw [finish_of_open hopen, callsOf_append, callsOf_append, callsOf_sweep, ht.calls, calls,
    hending]
  refine ⟨{ t with ending := [.complete (Exchange.complete r.exchange).1] }, ?_,
    { ht.orderly with ending := .inr (.inl ⟨_, rfl⟩) }, .inl ⟨_, rfl, hsettled⟩, ht.failed⟩
  rw [List.append_nil]
  rfl

theorem callsOf_refuse (hopen : r.closed = false) (reason : Refusal) :
    callsOf (Request.refuse hooks r reason).2 =
      [.reject reason (Exchange.reject r.exchange reason).1] := by
  unfold Request.refuse
  rw [if_neg (by simp [hopen])]
  dsimp only
  split
  next f exchange hreject =>
    rw [hreject]
    rfl
  next exchange hreject =>
    rw [hreject]
    have hsweep := callsOf_sweep hooks { r with closed := true, exchange }
    exact congrArg (_ :: ·) hsweep

theorem fits_refuse {reason : Refusal} {ending : Ending} (hopen : r.closed = false)
    (hat : t.opening = [] ∧ t.fallbacks = [] ∧ t.ending = [])
    (ht : t.Fits was r.stage (callsOf told)) :
    ∃ t' : Transcript, t'.Fits was (.gone ending)
      (callsOf (told ++ (Request.refuse hooks r reason).2)) := by
  obtain ⟨-, hreads⟩ := ht.opening hat
  rw [callsOf_append, callsOf_refuse hopen]
  refine ⟨⟨callsOf told, [], [], [], [.reject reason (Exchange.reject r.exchange reason).1]⟩, ?_,
    { orderly_reads hreads with ending := .inr (.inr ⟨⟨_, _, rfl⟩, rfl, rfl⟩) },
    .inr ⟨_, _, rfl⟩, fun h ↦ absurd rfl h⟩
  simp [Transcript.calls, body, early]

/-! ## All moves -/

/-- Every move keeps the calls in order, and leads to a stage that allows the phase they have come
to. -/
theorem Step.fits (h : Step hooks config r input r' more) (hw : r.WellFormed)
    (hwas : was r.stage (callsOf told)) (ht : t.Fits was r.stage (callsOf told)) :
    ∃ t' : Transcript, t'.Fits was r'.stage (callsOf (told ++ more)) := by
  cases h with
  | stay => exact fits_quiet ht rfl id
  | keepRank qos => exact fits_quiet ht rfl id
  | rank qos h => exact fits_quiet ht rfl id
  | @pass stage h =>
    refine fits_quiet ht rfl fun hat ↦ ?_
    -- whoever gets or loses a place before the response is started makes no calls
    cases hstage : r.stage <;> rw [hstage] at h hat <;> cases h <;> exact hat
  | own h =>
    cases h with
    | turn hstage =>
      refine fits_quiet ht (callsOf_turn r) fun hat ↦ ?_
      rw [hstage] at hat
      have hturned := turned_turn (hw.program (by rw [hstage]; rfl))
      exact hturned.stage (P := t.At was) hat hat fun _ ↦ hat
    | depart hstage => exact fits_depart _ _ hstage hwas ht
    | receive hevent => exact fits_receive hevent ht
    | deliver events direction => cases direction <;> exact fits_quiet ht rfl id
    | wake hwake => exact fits_quiet ht rfl id
    | forget hwaiting =>
      refine fits_quiet ht (callsOf_drop hooks _) fun hat ↦ ?_
      unfold isWaiting at hwaiting
      split at hwaiting
      next hstage =>
        rw [hstage] at hat
        exact hat.2
      next hstage =>
        rw [hstage] at hat
        exact ⟨hat.1, hat.2.1⟩
      · cases hwaiting
    | detach hwaiting => exact fits_quiet ht rfl id
  | fail hstage => exact fits_fail hstage hwas ht
  | finish hstage => exact fits_finish hstage (hw.closed (by rw [hstage]; rfl)) ht
  | refuse h =>
    have hopen := hw.closed_of_refused h
    have hat := ht.stage
    rcases h with ⟨admitted, hstage⟩ | ⟨hstage, -⟩ <;> rw [hstage] at hat <;>
      exact fits_refuse hopen hat ht

omit [Exchange σ] in
theorem fits_arriving : (⟨[], [], [], [], []⟩ : Transcript).Fits was .arriving [] where
  calls := rfl
  orderly := orderly_reads (by simp)
  stage := ⟨rfl, rfl, rfl⟩
  failed h := absurd rfl h

/-! ## What an exchange may rely on -/

/-- What an exchange may rely on, of a request at a stage that has made some calls. The record
`was` tells which stages the request went through, and what calls it had made when it was there. -/
structure Obeys (was : Stage → List Call → Prop) (stage : Stage) (calls : List Call) : Prop where
  /-- The calls are the beginning of a word of the protocol. -/
  word : ∃ rest, calls.map Call.kind ++ rest ∈ protocol.matches'
  /-- The response is started at most once, and not after an error was sent. -/
  start : calls.Pairwise fun c c' ↦ c'.kind = .startResponse →
    c.kind ≠ .startResponse ∧ c.kind ≠ .sendFallback
  /-- Pieces are written only right after the exchange said that it is ready. -/
  ready : ∀ {before : List Call} {chunk : Bytes} {reply : Reply} {after : List Call},
    calls = before ++ .write chunk reply :: after → before.getLast? = some (.isReady .ready)
  /-- Errors are sent only after the request failed. -/
  fallback : ∀ {c : Call}, c ∈ calls → c.kind = .sendFallback →
    ∃ failure early, was (.failing failure) early ∧ early <+: calls ∧
      ∀ c ∈ early, c.kind ≠ .sendFallback
  /-- The exchange is declared over only after it took the whole body of the response that the
  request came to, or an error was sent. -/
  complete : ∀ {before : List Call} {fault? : Option Fault} {after : List Call},
    calls = before ++ .complete fault? :: after →
    (∃ response early, was (.departed (.respond response)) early ∧ early <+: before ∧
      written before = response.body) ∨ ∃ c ∈ before, c.kind = .sendFallback
  /-- The exchange is ended at most once. -/
  once : (calls.filter Call.isEnd).length ≤ 1
  /-- Nothing is called after that. -/
  last : ∀ {before : List Call} {c : Call} {after : List Call},
    calls = before ++ c :: after → c.isEnd = true → after = []
  /-- A request that has left has ended its exchange. -/
  gone : ∀ {ending : Ending}, stage = .gone ending → (calls.filter Call.isEnd).length = 1

end Request

namespace Transcript

theorem Orderly.written_body (h : t.Orderly) (hfallbacks : t.fallbacks = []) :
    written t.body = written t.pieces := by
  have hreads : written t.reads = [] := written_eq_nil fun c hc ↦ by
    rw [h.reads c hc]
    simp
  have hopening : written t.opening = [] := written_eq_nil fun c hc ↦ by
    rw [h.opening_kind hc]
    simp
  rw [body, early, hfallbacks, List.append_nil, written_append, written_append, hreads, hopening,
    List.nil_append, List.nil_append]

theorem Orderly.early_kind (h : t.Orderly) {c : Call} (hc : c ∈ t.early) :
    c.kind ≠ .sendFallback := by
  rw [early, List.mem_append, List.mem_append] at hc
  rcases hc with (hc | hc) | hc
  · rw [h.reads c hc]
    simp
  · rw [h.opening_kind hc]
    simp
  · rcases h.pieces c hc with hkind | hkind <;> rw [hkind] <;> simp

/-- Before the exchange is declared over, the response was written, or an error was sent. -/
theorem settled_of_complete {stage : Stage} {fault? : Option Fault} (h : t.At was stage)
    (hending : t.ending = [.complete fault?]) : t.Settled was := by
  unfold At at h
  split at h
  · rw [h.2.1] at hending
    cases hending
  · rw [h.2] at hending
    cases hending
  · rw [h.2] at hending
    cases hending
  · rw [h.1] at hending
    cases hending
  · rcases h with ⟨_, -, hsettled⟩ | ⟨reason, _, hreject⟩
    · exact hsettled
    · rw [hreject] at hending
      cases hending
  · rw [h.2.2] at hending
    cases hending

theorem Fits.obeys {stage : Stage} (h : t.Fits was stage calls) :
    Request.Obeys was stage calls := by
  obtain ⟨rfl, horderly, hstage, hfailed⟩ := h
  refine {
    word := horderly.exists_word
    start := horderly.start
    ready := fun heq ↦ horderly.ready _ _ _ _ heq
    fallback := ?fallback
    complete := ?complete
    once := horderly.filter_isEnd ▸ horderly.ending_length
    last := fun heq hc ↦ (horderly.last heq hc).2.2
    gone := ?gone }
  case fallback =>
    intro c hc hkind
    have hne : t.fallbacks ≠ [] := by
      intro hnone
      rw [Transcript.calls, body, hnone, List.append_nil, List.mem_append] at hc
      rcases hc with hc | hc
      · exact horderly.early_kind hc hkind
      · rcases horderly.ending_kind hc with h | h <;> rw [hkind] at h <;> cases h
    obtain ⟨failure, hwas⟩ := hfailed hne
    refine ⟨failure, t.early, hwas, ?_, fun c hc ↦ horderly.early_kind hc⟩
    exact ((List.prefix_append _ _).trans (List.prefix_append _ _))
  case complete =>
    intro before fault? after heq
    obtain ⟨rfl, hending, -⟩ := horderly.last heq rfl
    have hsettled := settled_of_complete hstage hending
    by_cases hfallbacks : t.fallbacks = []
    · obtain ⟨response, hwas, -, hbody⟩ := hsettled.resolve_right (absurd hfallbacks)
      rw [List.append_nil] at hbody
      left
      refine ⟨response, t.reads, hwas, ?_, ?_⟩
      · rw [body, early, List.append_assoc, List.append_assoc]
        exact List.prefix_append _ _
      · rw [horderly.written_body hfallbacks, hbody]
    · right
      obtain ⟨c, hc⟩ := List.exists_mem_of_ne_nil _ hfallbacks
      exact ⟨c, List.mem_append_right _ hc, horderly.fallbacks c hc⟩
  case gone =>
    rintro ending rfl
    rw [horderly.filter_isEnd]
    rcases hstage with ⟨fault?, hending, -⟩ | ⟨reason, fault?, hending⟩ <;> rw [hending] <;> rfl

end Transcript

end Turnstile
