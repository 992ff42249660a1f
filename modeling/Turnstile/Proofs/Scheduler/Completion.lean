import Turnstile.Proofs.Scheduler.Conservation
import Turnstile.Proofs.Scheduler.Wire

/-!
# Who is counted as completed

A request is counted as completed when its exchange was declared over and did not break off by it.
Before that the transport has accepted a response for it: the one that the request came to, which
was started and written whole, or an error sent past the usual way. One thing is between the two.
A request that failed is declared over also when the transport took neither the error that the hook
words nor the last resort, and is counted though nothing was accepted for it.
-/

namespace Turnstile

theorem Transcript.Orderly.ending_of_complete {t : Transcript} (h : t.Orderly)
    {fault? : Option Fault} (hc : .complete fault? ∈ t.calls) : t.ending = [.complete fault?] := by
  have hmem : .complete fault? ∈ t.ending := by
    rw [← h.filter_isEnd]
    exact List.mem_filter.mpr ⟨hc, rfl⟩
  rcases h.ending with hending | ⟨_, hending⟩ | ⟨⟨_, _, hending⟩, -⟩ <;> rw [hending] at hmem ⊢
  · cases hmem
  · rw [List.mem_singleton.mp hmem]
  · cases List.mem_singleton.mp hmem

theorem Offered.kind {hooks : Hooks} {ordinal : Nat} {m : Metadata} {offered : List Call}
    (h : Offered hooks ordinal m offered) : ∀ c ∈ offered, c.kind = .sendFallback := by
  cases h <;> simp [Call.kind]

/-- The calls by which errors are sent past the usual way. -/
def errorsOf (calls : List Call) : List Call := calls.filter fun c ↦ c.kind = .sendFallback

theorem errorsOf_append (calls more : List Call) :
    errorsOf (calls ++ more) = errorsOf calls ++ errorsOf more := List.filter_append ..

theorem errorsOf_eq_nil {calls : List Call} (h : ∀ c ∈ calls, c.kind ≠ .sendFallback) :
    errorsOf calls = [] := List.filter_eq_nil_iff.mpr fun c hc ↦ by simpa using h c hc

namespace Scheduler

open Request (callsOf callsOf_append endingsOf)

variable {σ : Type} {s : Scheduler σ} {n : Nat} {r : Request σ}

/-! ## Finalized requests -/

/-- The request with an ordinal has left and was not refused. -/
def isFinalized (s : Scheduler σ) (n : Nat) : Bool := (s.ending? n).any fun e ↦ !e.isRefused

theorem isFinalized_of_completed (h : s.ending? n = some .completed) : s.isFinalized n = true := by
  rw [isFinalized, h]
  rfl

theorem lt_size_of_isFinalized (h : s.isFinalized n = true) : n < s.requests.size := by
  by_contra hle
  rw [isFinalized, ending?_of_size_le (Nat.le_of_not_lt hle)] at h
  cases h

theorem ending?_absorb {told : List Happening} (hn : n < s.requests.size) (hown : r.ordinal = n) :
    (s.absorb (r, told)).ending? n = r.stage.ending? :=
  ending?_eq ((put_getElem? (hown ▸ hn)).trans (if_pos hown))

variable [Exchange σ] {moves : List (Move σ)} {failure : Failure} {m : Metadata}

theorem Reachable.exists_complete (h : s.Reachable) (hfinal : s.isFinalized n = true) :
    ∃ fault?, .complete fault? ∈ callsOf (s.history n) := by
  have hr := Array.getElem?_eq_getElem (lt_size_of_isFinalized hfinal)
  obtain ⟨ending, hending, hkept⟩ := (Option.any_eq_true _ _).mp hfinal
  have hendings := h.endingsOf_history hr
  rw [← ending?_eq hr, hending] at hendings
  have hmem : ending ∈ endingsOf (s.history n) := by
    rw [hendings]
    exact List.mem_singleton_self _
  obtain ⟨c, hc, hends⟩ := List.mem_filterMap.mp hmem
  cases c with
  | complete fault? => exact ⟨fault?, hc⟩
  | reject reason fault? =>
    cases hends
    cases hkept
  | _ => cases hends

/-! ## What the transport accepts -/

/-- In a run the transport accepted a response for the request with an ordinal. It let the response
start that the request came to and took its whole body, or it took one past the usual way. -/
def Accepted (s : Scheduler σ) (n : Nat) (moves : List (Move σ)) : Prop :=
  (∃ response ops status headers, s.Concluded n moves response ops ∧
      .startResponse status headers .ok ∈ callsOf ((s.performAll moves).history n) ∧
      written (callsOf ((s.performAll moves).history n)) = response.body) ∨
    ∃ response, .sendFallback response .ok ∈ callsOf ((s.performAll moves).history n)

omit [Exchange σ] in
/-- The transport was offered the error that the hook words for the request with an ordinal, and
then the last resort, and took neither. -/
def Unanswered (s : Scheduler σ) (n : Nat) : Prop :=
  ∃ m reply lastReply, reply ≠ .ok ∧ lastReply ≠ .ok ∧
    errorsOf (callsOf (s.history n)) =
      [.sendFallback (s.hooks.errorResponse n m) reply, .sendFallback .minimal lastReply]

/-- A call that did not end well failed its request, unless it was the last. -/
theorem Reachable.failed_of_call (h : s.Reachable) (hnone : s.requests[n]? = none)
    (moves : List (Move σ)) {c : Call} (hc : c ∈ callsOf ((s.performAll moves).history n))
    (hfailure : c.failure? = some failure) : ∃ m, s.Failed n failure moves m := by
  obtain ⟨earlier, m, later, r, r', told, rfl, hr, hr', hstep, hcall⟩ :=
    h.exists_call hnone moves hc
  have hfailing := hstep.failing ((h.performAll earlier).sound.wellFormed hr) hcall hfailure
  have hat : (s.performAll (earlier ++ [m])).requests[n]? = some r' := by
    rw [performAll_append]
    exact hr'
  exact ⟨_, earlier ++ [m], r', ⟨later, by simp⟩, hat, hfailing, rfl⟩

/-- A request that never failed and was declared over has had its response started and written. -/
theorem Reachable.accepted_of_never (h : s.Reachable) (hnone : s.requests[n]? = none)
    (hr : (s.performAll moves).requests[n]? = some r) {fault? : Option Fault}
    (hcomplete : .complete fault? ∈ callsOf ((s.performAll moves).history n))
    (hnever : ∀ failure m, ¬ s.Failed n failure moves m) : s.Accepted n moves := by
  obtain ⟨t, ht⟩ := h.fits hnone moves (fun _ _ hwas ↦ hwas) hr
  have horderly := ht.orderly
  have hending := horderly.ending_of_complete (ht.calls ▸ hcomplete)
  have hfallbacks : t.fallbacks = [] := by
    by_contra hne
    obtain ⟨failure, earlier, r', hprefix, hr', hstage, -⟩ := ht.failed hne
    exact hnever failure r'.metadata ⟨earlier, r', hprefix, hr', hstage, rfl⟩
  obtain ⟨response, ⟨earlier, r', ⟨later, rfl⟩, hr', hstage, -⟩, hopening, hbody⟩ :=
    (Transcript.settled_of_complete ht.stage hending).resolve_right (absurd hfallbacks)
  obtain ⟨ops, hops, -⟩ := h.concluded_of_departed hnone hr' hstage
  obtain ⟨status, headers, reply, hopened⟩ := horderly.opening.resolve_left hopening
  have hcall : .startResponse status headers reply ∈
      callsOf ((s.performAll (earlier ++ later)).history n) := by
    rw [ht.calls, Transcript.calls, Transcript.body, Transcript.early, hopened]
    simp
  have hreply : reply = .ok := by
    rw [← ResponseWriter.reply_error?_eq_none, Option.eq_none_iff_forall_ne_some]
    intro e herror
    have hfailure : (Call.startResponse status headers reply).failure? =
        some (.responseStart e) := congrArg (Option.map _) herror
    obtain ⟨data, hfailed⟩ := h.failed_of_call hnone (earlier ++ later) hcall hfailure
    exact hnever _ data hfailed
  refine .inl ⟨response, ops, status, headers, hops.append later, hreply ▸ hcall, ?_⟩
  rw [ht.calls, Transcript.calls, written_append, hending, horderly.written_body hfallbacks]
  exact hbody

/-- A request that failed and is past it was offered an error, or two. -/
theorem Reachable.offered (h : s.Reachable) (hnone : s.requests[n]? = none)
    (hfailed : s.Failed n failure moves m) (hfinal : (s.performAll moves).isFinalized n = true) :
    ∃ data offered, Offered s.hooks n data offered ∧
      errorsOf (callsOf ((s.performAll moves).history n)) = offered := by
  obtain ⟨earlier, r, ⟨later, rfl⟩, hr, hstage, -⟩ := hfailed
  -- no error was sent before it failed
  obtain ⟨t, ht⟩ := h.fits hnone earlier (fun _ _ hwas ↦ hwas) hr
  have hearly : errorsOf (callsOf ((s.performAll earlier).history n)) = [] := by
    have hat := ht.stage
    rw [hstage] at hat
    rw [ht.calls, Transcript.calls, Transcript.body, hat.1, hat.2, List.append_nil, List.append_nil]
    exact errorsOf_eq_nil fun c hc ↦ ht.orderly.early_kind hc
  have hfailure : r.stage.failure? = some failure := by rw [hstage]; rfl
  obtain ⟨r', told, hr', hhistory, hanswered, -⟩ :=
    (h.performAll earlier).answering hr hfailure later
  rw [← performAll_append] at hr' hhistory
  rw [(h.frame_performAll earlier).2] at hanswered
  rw [isFinalized, ending?_eq hr'] at hfinal
  rw [hhistory, callsOf_append, errorsOf_append, hearly, List.nil_append]
  generalize r'.stage = stage at hanswered hfinal
  cases hanswered with
  | pending hpending =>
    cases stage with
    | gone ending => cases hpending
    | _ => cases hfinal
  | answered => cases hfinal
  | @left data offered swept hm hoffered hswept fault? =>
    refine ⟨data, offered, hoffered, ?_⟩
    have hcalls : callsOf (offered.map .call) ++ ([] ++ [.complete fault?]) =
        offered ++ [.complete fault?] := by rw [Request.callsOf_map_call, List.nil_append]
    rw [callsOf_append, callsOf_append, hswept]
    refine (congrArg errorsOf hcalls).trans ?_
    have hall : errorsOf offered = offered :=
      List.filter_eq_self.mpr fun c hc ↦ by simpa using hoffered.kind c hc
    rw [errorsOf_append, hall]
    exact List.append_nil _

/-- Of every finalized request the transport has accepted a response, unless it was offered two
errors for it and took neither. -/
theorem Reachable.accepted_or_unanswered (h : s.Reachable) (hnone : s.requests[n]? = none)
    (hfinal : (s.performAll moves).isFinalized n = true) :
    s.Accepted n moves ∨ (s.performAll moves).Unanswered n := by
  have hr := Array.getElem?_eq_getElem (lt_size_of_isFinalized hfinal)
  obtain ⟨fault?, hcomplete⟩ := (h.performAll moves).exists_complete hfinal
  by_cases hfailed : ∃ failure m, s.Failed n failure moves m
  · obtain ⟨failure, m, hfailed⟩ := hfailed
    obtain ⟨data, offered, hoffered, herrors⟩ := h.offered hnone hfailed hfinal
    have hmem {response : Response} {reply : Reply} (hc : .sendFallback response reply ∈ offered)
        (htaken : reply = .ok) : s.Accepted n moves := by
      rw [← herrors] at hc
      exact .inr ⟨response, htaken ▸ List.mem_of_mem_filter hc⟩
    cases hoffered with
    | taken htaken =>
      exact .inl (hmem (List.mem_singleton_self _) (ResponseWriter.reply_error?_eq_none.mp htaken))
    | @again reply hrefused lastReply =>
      by_cases htaken : lastReply = .ok
      · exact .inl (hmem (List.mem_cons_of_mem _ (List.mem_singleton_self _)) htaken)
      · refine .inr ⟨data, reply, lastReply, ?_, htaken, ?_⟩
        · exact fun hok ↦ hrefused (ResponseWriter.reply_error?_eq_none.mpr hok)
        · rw [herrors, (h.frame_performAll moves).2]
  · exact .inl (h.accepted_of_never hnone hr hcomplete fun failure m hm ↦ hfailed ⟨failure, m, hm⟩)

/-! ## The counter -/

open scoped Classical in
/-- Whom the counter of completed requests counts after a run from `start`. -/
structure Completed (start : Scheduler σ) (moves : List (Move σ)) (s : Scheduler σ) : Prop where
  /-- It counts those whose exchange was declared over and did not break off by it. -/
  counted : s.stats.completed = s.left (· = .completed)
  /-- For everybody finalized a response was accepted, or two errors were offered in vain. -/
  answered : ∀ n, s.isFinalized n = true → start.Accepted n moves ∨ s.Unanswered n
  /-- What tells it from the number of those finalized for whom a response was accepted are those
  whose exchange broke off at the end, and those for whom none was accepted. -/
  balance :
    s.stats.completed + s.tally (fun n ↦ s.ending? n = some .broken ∧ start.Accepted n moves) =
      s.tally (fun n ↦ s.isFinalized n = true ∧ start.Accepted n moves) +
        s.tally fun n ↦ s.ending? n = some .completed ∧ ¬ start.Accepted n moves
  /-- It counts those for whom a response was accepted, if no errors were offered in vain. -/
  exact : (∀ n, s.ending? n = some .completed → ¬ s.Unanswered n) →
    s.stats.completed = s.tally fun n ↦ s.ending? n = some .completed ∧ start.Accepted n moves

omit [Exchange σ] in
open scoped Classical in
theorem left_add (s : Scheduler σ) (accepted : Nat → Prop) :
    s.left (· = .completed) +
        s.tally (fun n ↦ s.ending? n = some .broken ∧ accepted n) =
      s.tally (fun n ↦ s.isFinalized n = true ∧ accepted n) +
        s.tally fun n ↦ s.ending? n = some .completed ∧ ¬ accepted n := by
  have hone (n : Nat) :
      ((s.ending? n).any (· = .completed)).toNat +
          (decide (s.ending? n = some .broken ∧ accepted n)).toNat =
        (decide (s.isFinalized n = true ∧ accepted n)).toNat +
          (decide (s.ending? n = some .completed ∧ ¬ accepted n)).toNat := by
    unfold isFinalized
    by_cases haccepted : accepted n <;> rcases s.ending? n with _ | (_ | _ | reason) <;>
      simp [haccepted, Ending.isRefused]
  unfold left tally
  induction List.range s.requests.size with
  | nil => rfl
  | cons n ns ih =>
    have hn := hone n
    simp only [List.countP_cons, ← toNat_eq_ite]
    omega

/-- After every run the counter of completed requests counts those whose exchange was declared over
and did not break off by it. For each of them a response was accepted, unless two errors were
offered in vain. -/
theorem performAll_completed {config : Config} {hooks : Hooks} (h : start? config hooks = .ok s)
    (moves : List (Move σ)) : Completed s moves (s.performAll moves) := by
  have hstart := reachable_of_start? h
  obtain ⟨-, rfl⟩ := start?_eq_ok h
  have hcounted : ((new config hooks).performAll moves).stats.completed =
      ((new config hooks).performAll moves).left (· = .completed) :=
    (hstart.counted_performAll (counted_new config hooks) moves).completed
  have hanswered (n : Nat) (hfinal : ((new config hooks).performAll moves).isFinalized n = true) :=
    hstart.accepted_or_unanswered (n := n) (by simp [new]) hfinal
  have hbalance := left_add ((new config hooks).performAll moves)
    fun n ↦ (new config hooks).Accepted n moves
  refine {
    counted := hcounted
    answered := hanswered
    balance := hcounted ▸ hbalance
    exact := ?exact }
  case exact =>
    intro hheard
    classical
    refine hcounted.trans (List.countP_congr fun n _ ↦ ?_)
    rw [Option.any_eq_true, decide_eq_true_eq]
    constructor
    · rintro ⟨ending, hending, hcompleted⟩
      rw [decide_eq_true_eq.mp hcompleted] at hending
      have haccepted := hanswered n (isFinalized_of_completed hending)
      exact ⟨hending, haccepted.resolve_right (hheard n hending)⟩
    · rintro ⟨hending, -⟩
      exact ⟨_, hending, decide_eq_true rfl⟩

/-! ## Requests that are counted though nothing was accepted -/

theorem Reachable.advance_failing (h : s.Reachable) (hr : s.requests[n]? = some r)
    (hstage : r.stage = .failing failure) :
    (s.perform (.advance n)).requests[n]? = some (Request.fail s.hooks r failure).1 ∧
      callsOf ((s.perform (.advance n)).history n) = callsOf (s.history n) ++
        callsOf (r.sendError (s.hooks.errorResponse n r.metadata)).2 ∧
      (s.perform (.advance n)).stats.completed = s.stats.completed := by
  have hnumbered := h.sound.numbered
  have hordinal := (Request.moved_fail s.hooks r failure).ordinal
  have hadvance : s.perform (.advance n) =
      ({ s with pool := s.pool.countFailure }).absorb (Request.fail s.hooks r failure) := by
    rw [perform, advance, hr]
    dsimp only
    rw [advanceRequest, hstage]
  rw [hadvance]
  refine ⟨(hnumbered.getElem?_put hr hordinal).trans (if_pos rfl), ?_, rfl⟩
  have hown : (Request.fail s.hooks r failure).1.ordinal = n :=
    hordinal.trans (hnumbered.ordinal hr)
  rw [history_absorb, if_pos hown, callsOf_append, ← hnumbered.ordinal hr]
  rfl

theorem Reachable.advance_finishing (h : s.Reachable) (hr : s.requests[n]? = some r)
    (hstage : r.stage = .finishing) (hkept : (Exchange.complete r.exchange).1 = none) :
    (s.perform (.advance n)).ending? n = some .completed ∧
      callsOf ((s.perform (.advance n)).history n) = callsOf (s.history n) ++ [.complete none] ∧
      (s.perform (.advance n)).stats.completed = s.stats.completed + 1 := by
  have hnumbered := h.sound.numbered
  have hopen : r.closed = false := (h.sound.wellFormed hr).closed (by rw [hstage]; rfl)
  have hordinal := (Request.finish_ordinal s.hooks r).trans (hnumbered.ordinal hr)
  have hadvance : s.perform (.advance n) = s.finish r := by
    rw [perform, advance, hr]
    dsimp only
    rw [advanceRequest, hstage]
  rw [hadvance, finish]
  rw [Request.finish_of_open hopen, hkept] at hordinal ⊢
  dsimp only at hordinal ⊢
  refine ⟨?_, ?_, rfl⟩
  · exact ending?_absorb (lt_size hr) hordinal
  · rw [history_absorb, if_pos hordinal, callsOf_append, callsOf_append, Request.callsOf_sweep]
    rfl

/-- A request that failed and whose transport does not take the first error is offered the last
resort with its next move. It leaves with the one after that and is counted as completed, whatever
the transport said. -/
theorem Reachable.completed_of_refused (h : s.Reachable) (hr : s.requests[n]? = some r)
    (hstage : r.stage = .failing failure) {reply lastReply : Reply} {x y : σ}
    (hfirst : Exchange.sendFallback r.exchange (s.hooks.errorResponse n r.metadata) = (reply, x))
    (hreply : reply ≠ .ok) (hlast : Exchange.sendFallback x .minimal = (lastReply, y))
    (hkept : (Exchange.complete y).1 = none) :
    (s.performAll [.advance n, .advance n]).ending? n = some .completed ∧
      callsOf ((s.performAll [.advance n, .advance n]).history n) = callsOf (s.history n) ++
        [.sendFallback (s.hooks.errorResponse n r.metadata) reply, .sendFallback .minimal lastReply,
          .complete none] ∧
      (s.performAll [.advance n, .advance n]).stats.completed = s.stats.completed + 1 := by
  have hordinal : r.ordinal = n := h.sound.numbered.ordinal hr
  obtain ⟨e, herror⟩ : ∃ e, reply.error? = some e :=
    Option.ne_none_iff_exists'.mp (mt ResponseWriter.reply_error?_eq_none.mp hreply)
  have hsent : r.sendError (s.hooks.errorResponse n r.metadata) = ({ r with exchange := y },
      [.call (.sendFallback (s.hooks.errorResponse n r.metadata) reply),
        .call (.sendFallback .minimal lastReply)]) := by
    rw [Request.sendError, hfirst]
    dsimp only
    rw [herror, hlast]
  obtain ⟨hr', hcalls', hcount'⟩ := h.advance_failing hr hstage
  have hexchange : (Request.fail s.hooks r failure).1.exchange = y := by
    rw [Request.fail, hordinal, hsent]
  obtain ⟨hgone, hcalls, hcount⟩ := (h.move _).advance_finishing hr' rfl (hexchange ▸ hkept)
  refine ⟨hgone, hcalls.trans ?_, hcount.trans (congrArg (· + 1) hcount')⟩
  rw [hcalls', hsent, List.append_assoc]
  rfl

/-- A request whose response cannot be started gets the slot, the scheduler is stopped, and the
request moves on until it is about to be answered with an error. The errors sent for it are answered
as given. -/
def unstarted (replies : List Reply) : List (Move Scripted) :=
  [.arrive { Scripted.new default with
      responseReply := .error ⟨.brokenPipe, "gone"⟩, fallbackReplies := replies }
    (.pure (.response (.empty 204))), .advance 0, .stop] ++ List.replicate 4 (.advance 0)

/-- Such a request moves on until it has left. -/
def unheard (replies : List Reply) : List (Move Scripted) :=
  unstarted replies ++ [.advance 0, .advance 0]

theorem leaves_unheard (e : IoError) (replies : List Reply) :
    (oneWorker.performAll (unheard (.error e :: replies))).ending? 0 = some .completed ∧
      (oneWorker.performAll (unheard (.error e :: replies))).stats.completed = 1 ∧
      ∃ response, callsOf ((oneWorker.performAll (unheard (.error e :: replies))).history 0) =
        [.startResponse 204 [] (.error ⟨.brokenPipe, "gone"⟩), .sendFallback response (.error e),
          .sendFallback .minimal (replies.headD .ok), .complete none] := by
  have hfailing : ((oneWorker.performAll (unstarted (.error e :: replies))).requests[0]?.map fun r ↦
        (r.stage, r.exchange.fallbackReplies, r.exchange.completionFault)) =
      some (.failing (.responseStart ⟨.brokenPipe, "gone"⟩), .error e :: replies, none) := by cbv
  have hcount : (oneWorker.performAll (unstarted (.error e :: replies))).stats.completed = 0 := by
    cbv
  have hcalls : callsOf ((oneWorker.performAll (unstarted (.error e :: replies))).history 0) =
      [.startResponse 204 [] (.error ⟨.brokenPipe, "gone"⟩)] := by cbv
  obtain ⟨r, hr, hstage⟩ := Option.map_eq_some_iff.mp hfailing
  simp only [Prod.mk.injEq] at hstage
  obtain ⟨hstage, hreplies, hkept⟩ := hstage
  have hstart : start? (.sized 1) (.plain .normal) = .ok oneWorker := rfl
  have hreachable := (reachable_of_start? hstart).performAll (unstarted (.error e :: replies))
  have hfirst (response : Response) : Exchange.sendFallback r.exchange response =
      (.error e, { r.exchange with fallbackReplies := replies }) := by
    simp [Exchange.sendFallback, hreplies]
  have hlast : Exchange.sendFallback { r.exchange with fallbackReplies := replies } .minimal =
      (replies.headD .ok, { r.exchange with fallbackReplies := replies.tail }) := rfl
  obtain ⟨hgone, htold, hcompleted⟩ :=
    hreachable.completed_of_refused hr hstage (hfirst _) (by simp) hlast hkept
  rw [unheard, performAll_append]
  rw [hcalls] at htold
  rw [hcount] at hcompleted
  exact ⟨hgone, hcompleted, _, htold⟩

theorem accepted_unheard_iff (e : IoError) (replies : List Reply) :
    oneWorker.Accepted 0 (unheard (.error e :: replies)) ↔ replies.headD .ok = .ok := by
  obtain ⟨-, -, response, hcalls⟩ := leaves_unheard e replies
  rw [Accepted, hcalls]
  constructor
  · rintro (⟨response, ops, status, headers, -, hcall, -⟩ | ⟨response, hcall⟩)
    · simp at hcall
    · simp only [List.mem_cons, List.not_mem_nil, reduceCtorEq, Call.sendFallback.injEq, and_false,
        or_false, false_or] at hcall
      exact hcall.2.symm
  · intro htaken
    exact .inr ⟨.minimal, by rw [htaken]; simp⟩

theorem isFinalized_unheard {e : IoError} {replies : List Reply}
    (h : (oneWorker.performAll (unheard (.error e :: replies))).isFinalized n = true) : n = 0 := by
  have hstart : start? (.sized 1) (.plain .normal) = .ok oneWorker := rfl
  have hsize := (reachable_of_start? hstart).size_performAll (unheard (.error e :: replies))
  exact Nat.lt_one_iff.mp ((lt_size_of_isFinalized h).trans_eq hsize)

/-- Such a request whose transport takes the last resort. -/
def heard : List (Move Scripted) := unheard [.error ⟨.brokenPipe, "no"⟩]

open scoped Classical in
/-- Of the request whose transport takes the last resort something was accepted, and it is the one
that is counted. -/
theorem performAll_completed_heard :
    start? (.sized 1) (.plain .normal) = .ok oneWorker ∧
      (∀ n, (oneWorker.performAll heard).ending? n = some .completed →
        ¬ (oneWorker.performAll heard).Unanswered n) ∧
      1 = (oneWorker.performAll heard).tally fun n ↦
        (oneWorker.performAll heard).ending? n = some .completed ∧ oneWorker.Accepted n heard := by
  have hstart : start? (.sized 1) (.plain .normal) = .ok oneWorker := rfl
  obtain ⟨-, hcount, response, hcalls⟩ := leaves_unheard ⟨.brokenPipe, "no"⟩ []
  have hheard (n : Nat) (hending : (oneWorker.performAll heard).ending? n = some .completed) :
      ¬ (oneWorker.performAll heard).Unanswered n := by
    obtain rfl := isFinalized_unheard (isFinalized_of_completed hending)
    rintro ⟨m, reply, lastReply, -, hlast, hoffered⟩
    rw [heard, hcalls] at hoffered
    have hsame := congrArg List.getLast? hoffered
    exact hlast (by simpa [errorsOf, Call.kind, eq_comm] using hsame)
  have hcompleted := performAll_completed hstart heard
  exact ⟨hstart, hheard, hcount.symm.trans (hcompleted.exact hheard)⟩

/-- Such a request whose transport takes nothing. -/
def inVain : List (Move Scripted) :=
  unheard [.error ⟨.brokenPipe, "no"⟩, .error ⟨.brokenPipe, "no"⟩]

open scoped Classical in
/-- Of the request whose transport takes nothing nothing was accepted, and it is counted all the
same. -/
theorem performAll_completed_inVain :
    start? (.sized 1) (.plain .normal) = .ok oneWorker ∧
      (oneWorker.performAll inVain).stats.completed = 1 ∧
      ((oneWorker.performAll inVain).tally fun n ↦
        (oneWorker.performAll inVain).isFinalized n = true ∧ oneWorker.Accepted n inVain) = 0 := by
  refine ⟨rfl, (leaves_unheard _ _).2.1, tally_eq_zero fun n ↦ decide_eq_false ?_⟩
  rintro ⟨hfinal, haccepted⟩
  obtain rfl := isFinalized_unheard hfinal
  cases (accepted_unheard_iff _ _).mp haccepted

end Scheduler

end Turnstile
