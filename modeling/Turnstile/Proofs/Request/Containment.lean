import Turnstile.Proofs.Cleanup.Ran
import Turnstile.Proofs.Request.Attempt
import Turnstile.Proofs.Request.Finalization

/-!
# No fault is left over

Every attempt of `Turnstile.Proofs.Request.Attempt` comes to what `Turnstile.Request` says, and no
fault leaves it: each that user code raises meets something that contains it.
-/

namespace Turnstile

/-- Something was done to the request in hand. -/
def InHand.after {σ : Type} (w : InHand σ) (did : Request σ × List Happening) : InHand σ :=
  { w with request := did.1, told := w.told ++ did.2 }

/-- A turn of the request in hand ended, well or with a fault by which the request fails. -/
def InHand.ended {σ : Type} (w : InHand σ) : Except Fault Unit → InHand σ
  | .ok () => w
  | .error f => { w with request := { w.request with stage := .leaving (.fail (.program f)) } }

/-- The request with other cleaners. -/
def Request.withCleaners {σ : Type} (r : Request σ) (cleaners : Cleanup String) : Request σ :=
  { r with dossier := { r.dossier with cleaners } }

/-- How a guarded call ends. -/
def Reply.result {α : Type} (reply : Reply) (a : α) : Except IoError α :=
  match reply.error? with
  | none => .ok a
  | some e => .error e

namespace Attempt

variable {σ α β : Type} {w w' : InHand σ} {a : α} {f : Fault} {hooks : Hooks}

/-! ## One piece of work after another -/

theorem bind_ok {x : Attempt σ α} {next : α → Attempt σ β} (h : x w = .ok a w') :
    (x >>= next) w = next a w' := by
  change EStateM.bind x next w = _
  rw [EStateM.bind, h]

theorem bind_error {x : Attempt σ α} {next : α → Attempt σ β} (h : x w = .error f w') :
    (x >>= next) w = .error f w' := by
  change EStateM.bind x next w = _
  rw [EStateM.bind, h]

/-- A fault is contained, and what was done before it stays done. -/
theorem contain_eq {x : Attempt σ α} {outcome : Except Fault α} (h : x w = raising outcome w') :
    contain x w = .ok outcome w' := by
  change EStateM.tryCatch (EStateM.map Except.ok x) _ w = _
  rw [EStateM.tryCatch, EStateM.map, h]
  cases outcome <;> rfl

theorem guarded_call {make : σ → Except Fault (Except IoError α) × Call × σ} {reply : Reply}
    {c : Call} {exchange : σ} (h : make w.request.exchange = (reply.outcome a, c, exchange)) :
    guarded (call make) w =
      .ok (reply.result a) (w.after ({ w.request with exchange }, [.call c])) := by
  have hcall : call make w =
      raising (reply.outcome a) (w.after ({ w.request with exchange }, [.call c])) := by
    rw [call, h]
    rfl
  refine (bind_ok (contain_eq hcall)).trans ?_
  cases reply <;> rfl

theorem report_eq (hooks : Hooks) (event : SensorEvent) :
    report hooks event w = .ok () (w.after (w.request, [Request.report hooks event])) :=
  bind_ok (contain_eq (bind_ok rfl))

@[simp] theorem after_nil (w : InHand σ) (r : Request σ) :
    w.after (r, []) = { w with request := r } := by
  rw [InHand.after, List.append_nil]

variable [Exchange σ]

/-! ## While the request goes on -/

omit [Exchange σ] in
theorem react_eq (next : Value → Program) (reaction : Reaction) :
    ∃ outcome w', react next reaction w = raising outcome w' ∧
      w.after (w.request.react next reaction) = w'.ended outcome := by
  cases reaction with
  | fault f d => exact ⟨.error f, _, bind_ok rfl, rfl⟩
  | _ => exact ⟨.ok (), _, rfl, rfl⟩

theorem proceed_eq (ended : Routine.Outcome Operation Value) :
    ∃ outcome w', proceed ended w = raising outcome w' ∧
      w.after (w.request.proceed ended) = w'.ended outcome := by
  cases ended with
  | finished value => exact ⟨.ok (), _, rfl, rfl⟩
  | faulted f => exact ⟨.error f, w, rfl, after_nil w _⟩
  | suspended op next =>
    obtain ⟨outcome, w', hreact, hafter⟩ :=
      react_eq (w := w) next (w.request.dossier.answer w.request.metadata op)
    exact ⟨outcome, w', (bind_ok rfl).trans hreact, hafter⟩

theorem turn_eq (w : InHand σ) : turn w = .ok () (w.after w.request.turn) := by
  unfold turn
  refine (bind_ok rfl).trans ?_
  cases h : w.request.program with
  | none =>
    have hturn : w.request.turn =
        ({ w.request with stage := .leaving (.fail .noProgram) }, []) := by
      unfold Request.turn
      split
      · rfl
      next p hp => cases h.symm.trans hp
    rw [hturn, after_nil]
    rfl
  | some p =>
    obtain ⟨outcome, w', hproceed, hafter⟩ :=
      proceed_eq (w := { w with request := { w.request with program := none } }) p.run
    refine (bind_ok rfl).trans ((bind_ok (contain_eq hproceed)).trans ?_)
    have hturn : w.after w.request.turn =
        w.after ({ w.request with program := none }.proceed p.run) := by
      rw [Request.turn, h]
    refine Eq.trans ?_ (congrArg (EStateM.Result.ok ()) (hturn.trans hafter).symm)
    cases outcome <;> rfl

theorem guarded_readBody {reply : Reply} {events : List IoEvent} {exchange : σ}
    (h : Exchange.readBody w.request.exchange = (reply, events, exchange)) :
    guarded readBody w =
      .ok (reply.result events)
        (w.after ({ w.request with exchange }, [.call (.readBody reply)])) :=
  guarded_call (by rw [h])

theorem guarded_startResponse {response : Response} {reply : Reply} {events : List IoEvent}
    {exchange : σ} (h : Exchange.startResponse w.request.exchange response.status response.headers =
      (reply, events, exchange)) :
    guarded (startResponse response) w =
      .ok (reply.result events)
        (w.after ({ w.request with exchange },
          [.call (.startResponse response.status response.headers reply)])) :=
  guarded_call (by rw [h])

theorem guarded_write {chunk : Bytes} {reply : Reply} {exchange : σ}
    (h : Exchange.write w.request.exchange chunk = (reply, exchange)) :
    guarded (write chunk) w =
      .ok (reply.result ())
        (w.after ({ w.request with exchange }, [.call (.write chunk reply)])) :=
  guarded_call (by rw [h])

theorem guarded_sendFallback {response : Response} {reply : Reply} {exchange : σ}
    (h : Exchange.sendFallback w.request.exchange response = (reply, exchange)) :
    guarded (sendFallback response) w =
      .ok (reply.result ())
        (w.after ({ w.request with exchange }, [.call (.sendFallback response reply)])) :=
  guarded_call (by rw [h])

theorem depart_eq (maxBodyBytes chunkSize : Nat) (exit : Exit) (w : InHand σ) :
    depart maxBodyBytes chunkSize exit w =
      .ok () (w.after (w.request.depart maxBodyBytes chunkSize exit)) := by
  cases exit with
  | respond response =>
    rw [depart, beginResponse, Request.depart, Request.beginResponse]
    cases h : Exchange.startResponse w.request.exchange
        (w.request.dossier.assemble response).1.status
        (w.request.dossier.assemble response).1.headers with
    | mk reply rest =>
      have hcall := guarded_startResponse (w := { w with
        request := { w.request with dossier := (w.request.dossier.assemble response).2 } }) h
      refine (bind_ok rfl).trans ((bind_ok rfl).trans ((bind_ok hcall).trans ?_))
      dsimp only
      rw [h]
      cases reply <;> rfl
  | readBody limit next =>
    rw [depart, beginRead, Request.depart, Request.beginRead]
    cases h : Exchange.readBody w.request.exchange with
    | mk reply rest =>
      refine (bind_ok (guarded_readBody h)).trans ?_
      cases reply <;> rfl
  | fail failure =>
    rw [Request.depart, after_nil]
    rfl

theorem contain_isReady {answer : Readiness} {exchange : σ}
    (h : Exchange.isReady w.request.exchange = (answer, exchange)) :
    contain isReady w =
      .ok answer.outcome (w.after ({ w.request with exchange }, [.call (.isReady answer)])) :=
  contain_eq (by rw [isReady, call, h]; rfl)

omit [Exchange σ] in
@[simp] theorem after_after (w : InHand σ) (did more : Request σ × List Happening) :
    (w.after did).after more = w.after (more.1, did.2 ++ more.2) := by
  simp [InHand.after]

omit [Exchange σ] in
/-- What writing led to, as the end of an attempt. -/
def wrote (w : InHand σ) (written : ResponseWriter.Written σ) :
    EStateM.Result Fault (InHand σ) (ResponseWriter.Progress × Bytes) :=
  .ok (written.progress, written.unsent)
    (w.after ({ w.request with exchange := written.exchange }, written.calls.map .call))

theorem writeAll_eq (chunkSize : Nat) (pos : 0 < chunkSize) (unsent : Bytes) (w : InHand σ) :
    writeAll chunkSize pos unsent w =
      wrote w (ResponseWriter.writeAll chunkSize pos unsent w.request.exchange) := by
  generalize hx : w.request.exchange = exchange
  fun_induction ResponseWriter.writeAll chunkSize pos unsent exchange generalizing w with
  | case1 exchange =>
    subst hx
    rw [writeAll]
    exact congrArg (EStateM.Result.ok _) (after_nil w w.request).symm
  | case2 exchange first more f exchange' hready =>
    subst hx
    rw [writeAll]
    exact bind_ok (contain_isReady hready)
  | case3 exchange first more exchange' hready =>
    subst hx
    rw [writeAll]
    exact bind_ok (contain_isReady hready)
  | case4 exchange first more exchange' hready chunk reply exchange'' hwrite e herror =>
    subst hx
    rw [writeAll]
    refine (bind_ok (contain_isReady hready)).trans ?_
    refine (bind_ok (guarded_write hwrite)).trans ?_
    rw [Reply.result, herror, after_after]
    rfl
  | case5 exchange first more exchange' hready chunk reply exchange'' hwrite herror rest ih =>
    subst hx
    rw [writeAll]
    refine (bind_ok (contain_isReady hready)).trans ?_
    refine (bind_ok (guarded_write hwrite)).trans ?_
    rw [Reply.result, herror, after_after]
    refine (ih _ rfl).trans ?_
    rw [wrote, after_after]
    rfl

theorem receiveWrite_eq (writer : ResponseWriter) (event : IoEvent) (w : InHand σ) :
    receiveWrite writer event w = .ok () (w.after (w.request.receiveWrite writer event)) := by
  cases event with
  | writable =>
    rw [receiveWrite, Request.receiveWrite, ResponseWriter.advance]
    have hwrite := writeAll_eq writer.chunkSize writer.chunkSize_pos writer.unsent w
    cases h : ResponseWriter.writeAll writer.chunkSize writer.chunkSize_pos writer.unsent
        w.request.exchange with
    | mk progress unsent exchange calls =>
      rw [h] at hwrite
      refine (bind_ok hwrite).trans ?_
      cases progress <;> rfl
  | _ => rfl

theorem receive_eq (event : IoEvent) (w : InHand σ) :
    receive event w = .ok () (w.after (w.request.receive event)) := by
  refine (bind_ok rfl).trans ?_
  cases h : w.request.stage with
  | writing writer =>
    refine (receiveWrite_eq writer event w).trans ?_
    rw [Request.receive, h]
  | _ => rfl

/-! ## The sweep -/

omit [Exchange σ] in
theorem fire_eq (depth id : Nat) (w : InHand σ) :
    ∃ events, (∀ id f, .failed id f ∉ events) ∧
      (w.request.dossier.cleaners.fire depth id).2.history.toList =
        w.request.dossier.cleaners.history.toList ++ events ∧
      fire depth id w =
        raising (w.request.dossier.cleaners.fire depth id).1
          (w.after (w.request.withCleaners (w.request.dossier.cleaners.fire depth id).2,
            events.map .cleaner)) := by
  obtain ⟨events, hran⟩ := Cleanup.ran_fire depth id w.request.dossier.cleaners
  refine ⟨events, hran.silent, hran.history, ?_⟩
  have hsince := Request.since_of_append hran.history
  rw [fire]
  dsimp only
  rw [Request.takeOver, hsince]
  rfl

omit [Exchange σ] in
theorem tellSwept_of_silent (hooks : Hooks) (ordinal : Nat) {events : List (Cleanup.Event String)}
    (h : ∀ id f, .failed id f ∉ events) :
    events.flatMap (Request.tellSwept hooks ordinal) = events.map .cleaner := by
  induction events with
  | nil => rfl
  | cons event events ih =>
    rw [List.flatMap_cons, List.map_cons, ih fun id f hmem ↦ h id f (List.mem_cons_of_mem _ hmem)]
    cases event with
    | failed id f => exact absurd List.mem_cons_self (h id f)
    | _ => rfl

omit [Exchange σ] in
theorem tellFailed_eq (id : Nat) (f : Fault) (w : InHand σ) :
    tellFailed hooks id f w =
      .ok () (w.after
        (w.request.withCleaners (w.request.dossier.cleaners.log (.failed id f)),
          Request.tellSwept hooks w.request.ordinal (.failed id f))) := by
  have hhistory : (w.request.dossier.cleaners.log (.failed id f)).history.toList =
      w.request.dossier.cleaners.history.toList ++ [.failed id f] := Journal.toList_push _ _
  have htold : w.request.takeOver { w.request.dossier with
        cleaners := w.request.dossier.cleaners.log (.failed id f) } =
      (w.request.withCleaners (w.request.dossier.cleaners.log (.failed id f)),
        [.cleaner (.failed id f)]) := by
    unfold Request.takeOver
    rw [Request.since_of_append hhistory]
    rfl
  have hact : act (fun r ↦ r.takeOver { r.dossier with
        cleaners := r.dossier.cleaners.log (.failed id f) }) w =
      .ok () (w.after (w.request.withCleaners (w.request.dossier.cleaners.log (.failed id f)),
        [.cleaner (.failed id f)])) :=
    congrArg (fun did ↦ EStateM.Result.ok () (w.after did)) htold
  refine (bind_ok hact).trans ?_
  refine (bind_ok rfl).trans ((report_eq hooks _).trans ?_)
  rw [after_after]
  rfl

omit [Exchange σ] in
theorem sweepBelow_eq (hooks : Hooks) (depth below ran : Nat) (w : InHand σ) :
    ∃ events,
      (w.request.dossier.cleaners.sweepBelow depth below ran).2.history.toList =
        w.request.dossier.cleaners.history.toList ++ events ∧
      sweepBelow hooks depth below w =
        .ok () (w.after
          (w.request.withCleaners (w.request.dossier.cleaners.sweepBelow depth below ran).2,
            events.flatMap (Request.tellSwept hooks w.request.ordinal))) := by
  induction below generalizing ran w with
  | zero =>
    exact ⟨[], (List.append_nil _).symm, congrArg (EStateM.Result.ok ()) (after_nil w _).symm⟩
  | succ below ih =>
    obtain ⟨told, hsilent, hhistory, hfire⟩ := fire_eq depth below w
    have htold := tellSwept_of_silent hooks w.request.ordinal hsilent
    rw [sweepBelow, Cleanup.sweepBelow]
    cases h : w.request.dossier.cleaners.fire depth below with
    | mk outcome cleaners =>
      rw [h] at hfire hhistory
      have hcontained := contain_eq hfire
      cases outcome with
      | ok started =>
        obtain ⟨events, hevents, hrest⟩ := ih (if started then ran + 1 else ran)
          (w.after (w.request.withCleaners cleaners, told.map .cleaner))
        refine ⟨told ++ events, ?_,
          (bind_ok hcontained).trans ((bind_ok rfl).trans (hrest.trans ?_))⟩
        · rw [← List.append_assoc, ← hhistory]
          cases started <;> exact hevents
        · rw [List.flatMap_append, htold, after_after]
          cases started <;> rfl
      | error f =>
        obtain ⟨events, hevents, hrest⟩ := ih ran
          ((w.after (w.request.withCleaners cleaners, told.map .cleaner)).after
            (w.request.withCleaners (cleaners.log (.failed below f)),
              Request.tellSwept hooks w.request.ordinal (.failed below f)))
        refine ⟨told ++ .failed below f :: events, ?_,
          (bind_ok hcontained).trans ((bind_ok (tellFailed_eq below f _)).trans (hrest.trans ?_))⟩
        · have hlogged : (cleaners.log (.failed below f)).history.toList =
              w.request.dossier.cleaners.history.toList ++ (told ++ [.failed below f]) := by
            rw [← List.append_assoc, ← hhistory]
            exact Journal.toList_push _ _
          rw [List.append_cons, ← List.append_assoc, ← hlogged]
          exact hevents
        · rw [List.flatMap_append, htold, List.flatMap_cons, after_after, after_after]
          rfl

omit [Exchange σ] in
/-- The sweep: the faults of the cleaners and of the sensor are contained. -/
theorem sweep_eq (hooks : Hooks) (w : InHand σ) :
    sweep hooks w = .ok () (w.after (Request.sweep hooks w.request)) := by
  have hsweep (events : List (Cleanup.Event String))
      (h : w.request.dossier.cleaners.sweep.2.history.toList =
        w.request.dossier.cleaners.history.toList ++ events) :
      Request.sweep hooks w.request = (w.request.withCleaners w.request.dossier.cleaners.sweep.2,
        events.flatMap (Request.tellSwept hooks w.request.ordinal)) :=
    congrArg (fun events ↦ (w.request.withCleaners w.request.dossier.cleaners.sweep.2,
      events.flatMap (Request.tellSwept hooks w.request.ordinal))) (Request.since_of_append h)
  refine (bind_ok rfl).trans ?_
  by_cases hswept : w.request.dossier.cleaners.swept = true
  · have hsame : w.request.dossier.cleaners.sweep = (0, w.request.dossier.cleaners) := by
      rw [Cleanup.sweep, if_pos hswept]
    rw [if_pos hswept, hsweep [] (by rw [hsame, List.append_nil]), hsame,
      List.flatMap_nil, after_nil]
    rfl
  · obtain ⟨events, hevents, hbelow⟩ := sweepBelow_eq hooks
      w.request.dossier.cleaners.pending w.request.dossier.cleaners.size 0
      { w with request := w.request.withCleaners { w.request.dossier.cleaners with swept := true } }
    rw [if_neg hswept, hsweep events (by rw [Cleanup.sweep, if_neg hswept]; exact hevents),
      Cleanup.sweep, if_neg hswept]
    exact (bind_ok rfl).trans hbelow

/-! ## The ends -/

omit [Exchange σ] in
theorem drop_eq (w : InHand σ) :
    drop hooks w = .ok () (w.after (Request.drop hooks w.request)) := by
  refine (bind_ok rfl).trans ?_
  rw [Request.drop]
  by_cases hclosed : w.request.closed = true
  · rw [if_pos hclosed, if_pos hclosed, after_nil]
    rfl
  · rw [if_neg hclosed, if_neg hclosed]
    exact (bind_ok rfl).trans (sweep_eq hooks _)

omit [Exchange σ] in
theorem lose_eq (w : InHand σ) :
    lose hooks w =
      .ok () (w.after ({ (Request.drop hooks w.request).1 with stage := .lost },
        (Request.drop hooks w.request).2)) := bind_ok (drop_eq w)

theorem errorResponse_eq (w : InHand σ) :
    errorResponse hooks w = .ok (hooks.errorResponse w.request.ordinal w.request.metadata) w := by
  refine (bind_ok rfl).trans ((bind_ok (contain_eq rfl)).trans ?_)
  rw [Hooks.errorResponse]
  cases hooks.format w.request.ordinal w.request.metadata <;> rfl

theorem sendError_eq (response : Response) (w : InHand σ) :
    sendError response w = .ok () (w.after (w.request.sendError response)) := by
  rw [Request.sendError]
  cases h : Exchange.sendFallback w.request.exchange response with
  | mk reply exchange =>
    refine (bind_ok (guarded_sendFallback h)).trans ?_
    cases herror : reply.error? with
    | none =>
      simp only [Reply.result, herror]
      rfl
    | some e =>
      simp only [Reply.result, herror]
      cases h' : Exchange.sendFallback exchange .minimal with
      | mk lastReply exchange' =>
        refine (bind_ok (guarded_sendFallback h')).trans ?_
        rw [after_after]
        rfl

/-- A failed request is answered: the faults of the sensor, the hook and the exchange are
contained. -/
theorem fail_eq (failure : Failure) (w : InHand σ) :
    fail hooks failure w =
      .ok () { w.after (Request.fail hooks w.request failure) with
        pool := w.pool.countFailure } := by
  refine (bind_ok rfl).trans ((bind_ok (report_eq hooks _)).trans ((bind_ok rfl).trans ?_))
  refine (bind_ok (errorResponse_eq _)).trans ((bind_ok (sendError_eq _ _)).trans ?_)
  change EStateM.Result.ok () (InHand.mk _ _ (_ ++ _ ++ _)) = _
  rw [List.append_assoc]
  rfl

theorem complete_eq {fault? : Option Fault} {exchange : σ}
    (h : Exchange.complete w.request.exchange = (fault?, exchange)) :
    complete w =
      raise? fault? (w.after ({ w.request with exchange }, [.call (.complete fault?)])) := by
  rw [complete, call, h]
  rfl

theorem reject_eq {reason : Refusal} {fault? : Option Fault} {exchange : σ}
    (h : Exchange.reject w.request.exchange reason = (fault?, exchange)) :
    reject reason w =
      raise? fault? (w.after ({ w.request with exchange }, [.call (.reject reason fault?)])) := by
  rw [reject, call, h]
  rfl

theorem finish_of_open (hopen : w.request.closed = false) {fault? : Option Fault} {exchange : σ}
    (h : Exchange.complete w.request.exchange = (fault?, exchange)) :
    finish hooks w =
      raising (fault?.elim (.ok true) .error) (w.after (Request.finish hooks w.request).2) := by
  have hsweep := sweep_eq hooks
    { w with request := { w.request with closed := true } }
  have hcomplete := complete_eq (w := InHand.after
    { w with request := { w.request with closed := true } }
    (Request.sweep hooks { w.request with closed := true })) h
  rw [after_after] at hcomplete
  rw [Request.finish_of_open hopen, h]
  refine (bind_ok rfl).trans ?_
  rw [if_neg (by simp [hopen])]
  refine (bind_ok rfl).trans ((bind_ok hsweep).trans ?_)
  cases fault? with
  | none => exact bind_ok hcomplete
  | some f => exact bind_error hcomplete

theorem finalize_eq (w : InHand σ) :
    finalize hooks w =
      .ok () { w.after ({ (Request.finish hooks w.request).2.1 with
          stage := .gone (.ofFinish (Request.finish hooks w.request).1) },
          (Request.finish hooks w.request).2.2) with
        pool := (Request.finish hooks w.request).1.elim w.pool w.pool.retire } := by
  by_cases hclosed : w.request.closed = true
  · have hfinish : finish hooks w = raising (.ok false) w := by
      refine (bind_ok rfl).trans ?_
      rw [if_pos hclosed]
      rfl
    refine (bind_ok (contain_eq hfinish)).trans ?_
    rw [Request.finish, if_pos hclosed, after_nil]
    rfl
  · have hopen := Bool.eq_false_iff.mpr hclosed
    cases h : Exchange.complete w.request.exchange with
    | mk fault? exchange =>
      refine (bind_ok (contain_eq (finish_of_open hopen h))).trans ?_
      rw [Request.finish_of_open hopen, h]
      cases fault? <;> rfl

theorem turnAway_of_open (hopen : w.request.closed = false) {reason : Refusal}
    {fault? : Option Fault} {exchange : σ}
    (h : Exchange.reject w.request.exchange reason = (fault?, exchange)) :
    turnAway hooks reason w =
      raise? fault? (w.after (Request.refuse hooks w.request reason)) := by
  have hreport := report_eq hooks
    (w := { w with request := { w.request with closed := true } })
    (.rejected w.request.ordinal reason.message)
  have hreject := reject_eq (w := { w with request := { w.request with closed := true } }.after
    ({ w.request with closed := true },
      [Request.report hooks (.rejected w.request.ordinal reason.message)])) h
  rw [after_after] at hreject
  rw [Request.refuse, if_neg (by simp [hopen]), h]
  refine (bind_ok rfl).trans ?_
  rw [if_neg (by simp [hopen])]
  refine (bind_ok rfl).trans ((bind_ok rfl).trans ((bind_ok hreport).trans ?_))
  cases fault? with
  | some f => exact bind_error hreject
  | none =>
    -- only an exchange that took the refusal lets the cleaners run
    refine (bind_ok hreject).trans ((sweep_eq hooks _).trans ?_)
    rw [after_after]
    rfl

theorem refuse_eq (reason : Refusal) (admitted : Bool) (w : InHand σ) :
    refuse hooks reason admitted w =
      .ok () { w.after ({ (Request.refuse hooks w.request reason).1 with
          stage := .gone (.refused reason) }, (Request.refuse hooks w.request reason).2) with
        pool := w.pool.refuse admitted } := by
  by_cases hclosed : w.request.closed = true
  · have hturned : turnAway hooks reason w = raising (.ok ()) w := by
      refine (bind_ok rfl).trans ?_
      rw [if_pos hclosed]
      rfl
    refine (bind_ok (contain_eq hturned)).trans ?_
    rw [Request.refuse, if_pos hclosed, after_nil]
    rfl
  · cases h : Exchange.reject w.request.exchange reason with
    | mk fault? exchange =>
      exact bind_ok (contain_eq (turnAway_of_open (Bool.eq_false_iff.mpr hclosed) h))

end Attempt

end Turnstile
