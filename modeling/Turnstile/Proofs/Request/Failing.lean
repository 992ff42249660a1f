import Turnstile.Proofs.Request.Protocol
import Turnstile.Proofs.Request.Refusal

/-!
# Requests that fail

What comes of a request whose program or transport failed. It gives back its slot, if it held one,
and is answered with an error: the transport is offered the response that the hook words, or the
last resort if the hook breaks off, and the last resort once more exactly if the first is not taken.
However that ends, the cleaners are run and the exchange is declared over.
-/

namespace Turnstile

/-- The failure that a request is about to be answered for. -/
def Stage.failure? : Stage → Option Failure
  | .leaving (.fail failure) | .departed (.fail failure) | .failing failure => some failure
  | _ => none

/-- How many moves of its own a request that failed is from its end. -/
def Stage.movesLeft : Stage → Nat
  | .leaving _ => 4
  | .departed _ => 3
  | .failing _ => 2
  | .finishing => 1
  | _ => 0

/-- Why a request fails by a call that did not end well; the calls that end a request are no
reason. -/
def Call.failure? : Call → Option Failure
  | .readBody reply => reply.error?.map .readStart
  | .startResponse _ _ reply => reply.error?.map .responseStart
  | .isReady (.fault f) => some (.write (.ofFault f))
  | .write _ reply => reply.error?.map .write
  | _ => none

/-- What the transport is offered for the failed request with an ordinal and metadata: the response
that the hook words, or the last resort if the hook breaks off, and the last resort once more
exactly if the first is not taken. -/
inductive Offered (hooks : Hooks) (ordinal : Nat) (m : Metadata) : List Call → Prop where
  /-- The first is taken. -/
  | taken {reply : Reply} (h : reply.error? = none) :
    Offered hooks ordinal m [.sendFallback (hooks.errorResponse ordinal m) reply]
  /-- The first is not taken, and the second may be. -/
  | again {reply : Reply} (h : reply.error? ≠ none) (lastReply : Reply) :
    Offered hooks ordinal m
      [.sendFallback (hooks.errorResponse ordinal m) reply, .sendFallback .minimal lastReply]

/-- What is told of the request with an ordinal from its failure on, until it is at a stage; `was`
says which metadata it had when it was answered. -/
inductive Answered (hooks : Hooks) (ordinal : Nat) (failure : Failure) (was : Metadata → Prop) :
    Stage → List Happening → Prop where
  /-- It is about to be answered, and nothing is told. -/
  | pending {stage : Stage} (h : stage.failure? = some failure) :
    Answered hooks ordinal failure was stage []
  /-- The sensor was told, and the transport was offered a response. -/
  | answered {m : Metadata} {offered : List Call} (hm : was m)
    (h : Offered hooks ordinal m offered) :
    Answered hooks ordinal failure was .finishing
      (Request.report hooks (.connectionError ordinal (failure.message hooks.kindName)) ::
        offered.map .call)
  /-- The cleaners were run, without a call, and the exchange was declared over. -/
  | left {m : Metadata} {offered : List Call} {swept : List Happening} (hm : was m)
    (h : Offered hooks ordinal m offered) (hswept : Request.callsOf swept = [])
    (fault? : Option Fault) :
    Answered hooks ordinal failure was (.gone (.ofFinish (some fault?.isNone)))
      (Request.report hooks (.connectionError ordinal (failure.message hooks.kindName)) ::
        offered.map .call ++ (swept ++ [.call (.complete fault?)]))

namespace Request

variable {σ : Type} [Exchange σ] {hooks : Hooks} {config : Config} {r r' : Request σ}
  {input : Input} {told more : List Happening} {failure : Failure} {was was' : Metadata → Prop}

omit [Exchange σ] in
theorem answered_mono {ordinal : Nat} {stage : Stage}
    (h : Answered hooks ordinal failure was stage told) (hwas : ∀ m, was m → was' m) :
    Answered hooks ordinal failure was' stage told := by
  cases h with
  | pending h => exact .pending h
  | answered hm h => exact .answered (hwas _ hm) h
  | left hm h hswept fault? => exact .left (hwas _ hm) h hswept fault?

/-- The transport is offered a response, and the last resort exactly if the first is not taken. -/
theorem offered_sendError (hooks : Hooks) (r : Request σ) :
    ∃ offered, Offered hooks r.ordinal r.metadata offered ∧
      (r.sendError (hooks.errorResponse r.ordinal r.metadata)).2 = offered.map .call := by
  unfold sendError
  split
  next reply exchange h =>
    split
    next herror => exact ⟨_, .taken herror, rfl⟩
    next e herror =>
      split
      exact ⟨_, .again (by rw [herror]; simp) _, rfl⟩

omit [Exchange σ] in
theorem answered_stage {ordinal : Nat} {stage : Stage}
    (h : Answered hooks ordinal failure was stage told) :
    stage.failure? = some failure ∧ told = [] ∨ stage = .finishing ∨
      ∃ ending, stage = .gone ending := by
  cases h with
  | pending h => exact .inl ⟨h, rfl⟩
  | answered hm h => exact .inr (.inl rfl)
  | left hm h hswept fault? => exact .inr (.inr ⟨_, rfl⟩)

omit [Exchange σ] in
theorem answered_same {ordinal : Nat} (h : Answered hooks ordinal failure was r.stage told)
    (hstage : r'.stage = r.stage) :
    Answered hooks ordinal failure was r'.stage (told ++ []) ∧
      r'.stage.movesLeft ≤ r.stage.movesLeft := by
  rw [hstage, List.append_nil]
  exact ⟨h, Nat.le_refl _⟩

theorem Own.answering (hown : Own hooks config r input r' more)
    (h : Answered hooks r.ordinal failure was r.stage told) :
    Answered hooks r.ordinal failure was r'.stage (told ++ more) ∧
      r'.stage.movesLeft ≤ r.stage.movesLeft := by
  have hstage := answered_stage h
  cases hown with
  | turn hrunning => simp [hrunning, Stage.failure?] at hstage
  | @depart exit hdeparted =>
    rw [hdeparted] at hstage ⊢
    cases exit with
    | fail failure' =>
      obtain ⟨⟨⟩, rfl⟩ : some failure' = some failure ∧ told = [] := by
        simpa [Stage.failure?] using hstage
      exact ⟨.pending rfl, Nat.le_succ _⟩
    | _ => simp [Stage.failure?] at hstage
  | receive hevent =>
    rcases nextEvent?_eq_some hevent with ⟨reader, next, box, rest, hreading, -⟩ |
      ⟨writer, box, rest, hwriting, -⟩
    · simp [hreading, Stage.failure?] at hstage
    · simp [hwriting, Stage.failure?] at hstage
  | deliver events direction => cases direction <;> exact answered_same h rfl
  | wake hwake => exact answered_same h rfl
  | forget hwaiting =>
    unfold isWaiting at hwaiting
    split at hwaiting
    next hreading => simp [hreading, Stage.failure?] at hstage
    next hwriting => simp [hwriting, Stage.failure?] at hstage
    · cases hwaiting
  | detach hwaiting => exact answered_same h rfl

/-- Every step of a request that failed goes on with its answer, and takes it no further from
its end. -/
theorem Step.answering (hstep : Step hooks config r input r' more) (hw : r.WellFormed)
    (hwas : r.stage = .failing failure → was r.metadata)
    (h : Answered hooks r.ordinal failure was r.stage told) :
    Answered hooks r.ordinal failure was r'.stage (told ++ more) ∧
      r'.stage.movesLeft ≤ r.stage.movesLeft := by
  have hstage := answered_stage h
  cases hstep with
  | stay => exact answered_same h rfl
  | keepRank qos => exact answered_same h rfl
  | rank qos hqueued => exact answered_same h rfl
  | @pass stage hpass =>
    generalize r.stage = stage₀ at hpass hstage
    cases hpass with
    | left exit =>
      cases exit with
      | fail failure' =>
        obtain ⟨⟨⟩, rfl⟩ : some failure' = some failure ∧ told = [] := by
          simpa [Stage.failure?] using hstage
        exact ⟨.pending rfl, Nat.le_succ _⟩
      | _ => simp [Stage.failure?] at hstage
    | _ => simp [Stage.failure?] at hstage
  | own hown => exact hown.answering h
  | @fail failure' hfailing =>
    rw [hfailing] at hstage
    obtain ⟨⟨⟩, rfl⟩ : some failure' = some failure ∧ told = [] := by
      simpa [Stage.failure?] using hstage
    obtain ⟨offered, hoffered, htold⟩ := offered_sendError hooks r
    have hmore : (Request.fail hooks r failure).2 =
        report hooks (.connectionError r.ordinal (failure.message hooks.kindName)) ::
          offered.map .call := congrArg _ htold
    rw [List.nil_append, hmore, hfailing]
    exact ⟨.answered (hwas hfailing) hoffered, Nat.le_succ _⟩
  | finish hfinishing =>
    rw [hfinishing] at h
    cases h with
    | pending h => cases h
    | answered hm hoffered =>
      rw [finish_of_open (hw.closed (by rw [hfinishing]; rfl))]
      exact ⟨.left hm hoffered (callsOf_sweep hooks _) _, Nat.zero_le _⟩
  | refuse hrefused =>
    rcases hrefused with ⟨admitted, hrefusing⟩ | ⟨hdrained, -⟩
    · simp [hrefusing, Stage.failure?] at hstage
    · simp [hdrained, Stage.failure?] at hstage

/-! ## Calls that fail -/

theorem writeAll_failure {c : Call} (chunkSize : Nat) (pos : 0 < chunkSize) (unsent : Bytes)
    (exchange : σ) (hc : c ∈ (ResponseWriter.writeAll chunkSize pos unsent exchange).calls)
    (hfailure : c.failure? = some failure) :
    ∃ e, (ResponseWriter.writeAll chunkSize pos unsent exchange).progress = .failed e ∧
      failure = .write e := by
  fun_induction ResponseWriter.writeAll chunkSize pos unsent exchange with
  | case1 exchange => cases hc
  | case2 exchange first more f exchange' hready =>
    rw [List.mem_singleton.mp hc] at hfailure
    cases hfailure
    exact ⟨_, rfl, rfl⟩
  | case3 exchange first more exchange' hready =>
    rw [List.mem_singleton.mp hc] at hfailure
    cases hfailure
  | case4 exchange first more exchange' hready chunk reply exchange'' hwrite e herror =>
    simp only [List.mem_cons, List.not_mem_nil, or_false] at hc
    rcases hc with rfl | rfl
    · cases hfailure
    · rw [Call.failure?, herror] at hfailure
      cases hfailure
      exact ⟨e, rfl, rfl⟩
  | case5 exchange first more exchange' hready chunk reply exchange'' hwrite herror rest ih =>
    simp only [List.mem_cons] at hc
    rcases hc with rfl | rfl | hc
    · cases hfailure
    · rw [Call.failure?, herror] at hfailure
      cases hfailure
    · exact ih hc

theorem failing_depart {c : Call} (maxBodyBytes chunkSize : Nat) (exit : Exit)
    (hc : c ∈ callsOf (r.depart maxBodyBytes chunkSize exit).2)
    (hfailure : c.failure? = some failure) :
    (r.depart maxBodyBytes chunkSize exit).1.stage = .failing failure := by
  revert hc
  cases exit with
  | respond response =>
    rw [depart, beginResponse]
    split
    split
    split
    all_goals intro hc
    next e herror =>
      rw [List.mem_singleton.mp hc, Call.failure?, herror] at hfailure
      cases hfailure
      rfl
    next herror =>
      rw [List.mem_singleton.mp hc, Call.failure?, herror] at hfailure
      cases hfailure
  | readBody limit next =>
    rw [depart, beginRead]
    split
    split
    all_goals intro hc
    next e herror =>
      rw [List.mem_singleton.mp hc, Call.failure?, herror] at hfailure
      cases hfailure
      rfl
    next herror =>
      rw [List.mem_singleton.mp hc, Call.failure?, herror] at hfailure
      cases hfailure
  | fail failure => exact fun hc ↦ absurd hc List.not_mem_nil

theorem failing_receive {event : IoEvent} {c : Call} (hevent : r.nextEvent? = some (event, r'))
    (hc : c ∈ callsOf (r'.receive event).2) (hfailure : c.failure? = some failure) :
    (r'.receive event).1.stage = .failing failure := by
  revert hc
  rcases nextEvent?_eq_some hevent with ⟨reader, next, box, rest, hstage, -, -, rfl⟩ |
    ⟨writer, box, rest, hstage, -, -, rfl⟩
  · rw [receive]
    simp only [hstage]
    exact fun hc ↦ absurd hc List.not_mem_nil
  · rw [receive]
    simp only [hstage]
    cases event with
    | writable =>
      have hwrite (hc : c ∈ (ResponseWriter.writeAll writer.chunkSize writer.chunkSize_pos
        writer.unsent r.exchange).calls) := writeAll_failure _ _ _ _ hc hfailure
      rw [receiveWrite, ResponseWriter.advance]
      cases hwritten : ResponseWriter.writeAll writer.chunkSize writer.chunkSize_pos writer.unsent
          r.exchange with
      | mk progress unsent exchange calls =>
        rw [hwritten] at hwrite
        intro hc
        obtain ⟨e, hprogress, rfl⟩ := hwrite (by cases progress <;> simpa using hc)
        cases hprogress
        rfl
    | _ => exact fun hc ↦ absurd hc List.not_mem_nil

/-- A call that fails while the request goes on makes it fail. -/
theorem Step.failing (hstep : Step hooks config r input r' more) (hw : r.WellFormed) {c : Call}
    (hc : c ∈ callsOf more) (hfailure : c.failure? = some failure) :
    r'.stage = .failing failure := by
  cases hstep with
  | own hown =>
    cases hown with
    | turn hrunning =>
      rw [callsOf_turn] at hc
      cases hc
    | depart hdeparted => exact failing_depart _ _ _ hc hfailure
    | receive hevent => exact failing_receive hevent hc hfailure
    | forget hwaiting =>
      rw [callsOf_drop] at hc
      cases hc
    | _ => cases hc
  | fail hfailing =>
    obtain ⟨hkinds, -⟩ := callsOf_sendError r (hooks.errorResponse r.ordinal r.metadata)
    have hkind := hkinds c hc
    cases c with
    | sendFallback response reply => cases hfailure
    | _ => cases hkind
  | finish hfinishing =>
    rw [finish_of_open (hw.closed (by rw [hfinishing]; rfl)), callsOf_append, callsOf_sweep] at hc
    rw [List.mem_singleton.mp hc] at hfailure
    cases hfailure
  | refuse hrefused =>
    rw [callsOf_refuse (hw.closed_of_refused hrefused)] at hc
    rw [List.mem_singleton.mp hc] at hfailure
    cases hfailure
  | _ => cases hc

end Request

end Turnstile
