import Mathlib.Data.List.Induction
import Turnstile.Proofs.Request.Wire
import Turnstile.Proofs.Scheduler.Admission
import Turnstile.Proofs.Scheduler.Executed
import Turnstile.Proofs.Scheduler.Protocol

/-!
# What goes on the wire

A request gathers headers and cookies while its program runs. It may give its slot back to read its
body, wait, and run again, it may be led through any number of programs, and others may move it to
another class; none of this adds anything or loses anything. When the request comes to a response,
this is started with what the operations carried out up to then add, in their order; the program
carries out none after that.

## Before and after the response

So there are two stretches of a run. Until the response is started, a request under way holds just
what its operations add, and it came to its response at one moment of the run
(`Scheduler.Concluded`). From that moment on nothing is carried out for it, and it comes to no other
response. Every call of the transport was made with some move, so the call that started the response
was made after that moment, with the dossier as it was then.
-/

namespace Turnstile

namespace Scheduler

open Request (callsOf callsOf_append answersOf answersOf_append)

variable {σ : Type} [Exchange σ] {s : Scheduler σ} {n : Nat} {r r' : Request σ} {m : Move σ}
  {moves : List (Move σ)} {response : Response} {ops : List Operation}

/-! ## Coming to a response -/

/-- The response that a move brings the request with an ordinal to, if it brings it to one. -/
def concludes? (s : Scheduler σ) (n : Nat) : Move σ → Option Response
  | .advance k => if k = n then s.requests[n]?.bind Request.conclusion? else none
  | _ => none

/-- At some moment of the run the request with the ordinal comes to the response, when the
operations were carried out for it. -/
def Concluded (s : Scheduler σ) (n : Nat) (moves : List (Move σ)) (response : Response)
    (ops : List Operation) : Prop :=
  ∃ earlier later, moves = earlier ++ .advance n :: later ∧
    (s.performAll earlier).concludes? n (.advance n) = some response ∧
    s.executed n earlier = ops

theorem Concluded.append (h : s.Concluded n moves response ops) (more : List (Move σ)) :
    s.Concluded n (moves ++ more) response ops := by
  obtain ⟨earlier, later, rfl, hconcludes, hops⟩ := h
  exact ⟨earlier, later ++ more, by simp, hconcludes, hops⟩

/-! ## What one move does -/

theorem Reachable.underWay_perform (h : s.Reachable) (hr : s.requests[n]? = some r)
    (hr' : (s.perform m).requests[n]? = some r') (hway : r'.stage.isUnderWay = true) :
    r.stage.isUnderWay = true := by
  obtain ⟨r₁, told, hr₁, -, hstep⟩ := (h.change m).step h.sound hr
  cases hr'.symm.trans hr₁
  exact hstep.underWay hway

theorem Reachable.underWay_other (h : s.Reachable) (hr : s.requests[n]? = some r)
    (hm : m ≠ .advance n) (hr' : (s.perform m).requests[n]? = some r')
    (hway : r'.stage.isUnderWay = true) :
    r'.stage.response? = r.stage.response? ∧ r'.dossier.headers = r.dossier.headers ∧
      r'.dossier.cookies = r.dossier.cookies := by
  by_cases htarget : m.target? = some n
  · obtain rfl := Option.some.inj (hr'.symm.trans (h.affects htarget hr).self)
    cases m with
    | advance k =>
      cases htarget
      exact absurd rfl hm
    | deliver k direction events => cases direction <;> exact ⟨rfl, rfl, rfl⟩
    | wake k =>
      rw [Circumstances.perform]
      split <;> exact ⟨rfl, rfl, rfl⟩
    | forget k =>
      rw [Circumstances.perform, Circumstances.forget] at hway ⊢
      split at hway
      · cases hway
      · cases hway
      · exact ⟨rfl, rfl, rfl⟩
    | reprioritize k qos =>
      rw [Circumstances.perform]
      split <;> exact ⟨rfl, rfl, rfl⟩
    | openGate k => exact ⟨rfl, rfl, rfl⟩
    | _ => cases htarget
  · have hunder := h.underWay_perform hr hr' hway
    have hdrained : r.stage ≠ .drained := by
      intro hdrained
      rw [hdrained] at hunder
      cases hunder
    obtain ⟨r₁, hr₁, hrestaged, -⟩ := h.bystander htarget hr hdrained
    cases hr'.symm.trans hr₁
    rcases hrestaged with rfl | ⟨hqueued, stage, hpass, rfl⟩
    · exact ⟨rfl, rfl, rfl⟩
    · rw [hqueued] at hpass ⊢
      cases hpass <;> exact ⟨rfl, rfl, rfl⟩

omit [Exchange σ] in
theorem response?_entry (r : Request σ) (admission : Admission) :
    (s.entry r admission).response? = none := by
  unfold entry
  split <;> rfl

theorem Reachable.underWay_self (h : s.Reachable) (hr : s.requests[n]? = some r)
    (hr' : (s.perform (.advance n)).requests[n]? = some r') (hway : r'.stage.isUnderWay = true)
    (hgathers : r.dossier.Gathers ops) :
    r'.stage.response? = r.stage.response?.or r.conclusion? ∧
      r'.dossier.Gathers (ops ++ r.executes?.toList) := by
  have hunder := h.underWay_perform hr hr' hway
  have hself : r' = ((s.circumstances r).advance r).1 :=
    Option.some.inj (hr'.symm.trans (h.affects (m := .advance n) rfl hr).self)
  -- whoever does not run carries out nothing, and its dossier stays as it is
  have quiet (hrunning : r.stage ≠ .running) (hdossier : r'.dossier = r.dossier) :
      r'.dossier.Gathers (ops ++ r.executes?.toList) := by
    rw [Request.executes?_of_ne_running hrunning, Option.toList_none, List.append_nil, hdossier]
    exact hgathers
  have still (hwaits : r.conclusion? = none) (hresponse : r'.stage.response? = r.stage.response?) :
      r'.stage.response? = r.stage.response?.or r.conclusion? := by
    rw [hwaits, Option.or_none]
    exact hresponse
  rw [Circumstances.advance] at hself
  cases hstage : r.stage with
  | arriving | returning =>
    simp only [hstage] at hself quiet still
    subst hself
    exact ⟨still (by rw [Request.conclusion?, hstage]) (response?_entry r _), quiet (by simp) rfl⟩
  | queued =>
    simp only [hstage] at hself quiet still
    subst hself
    exact ⟨still (by rw [Request.conclusion?, hstage]) (by rw [hstage]), quiet (by simp) rfl⟩
  | ready | gated =>
    simp only [hstage] at hself quiet still
    have hkept : r'.stage.response? = none ∧ r'.dossier = r.dossier := by
      rw [hself]
      split
      · exact ⟨rfl, rfl⟩
      · exact ⟨by rw [hstage]; rfl, rfl⟩
    exact ⟨still (by rw [Request.conclusion?, hstage]) hkept.1, quiet (by simp) hkept.2⟩
  | running =>
    simp only [hstage] at hself
    subst hself
    exact ⟨Request.response?_turn hstage, Request.gathers_turn hstage hgathers⟩
  | leaving exit =>
    simp only [hstage] at hself quiet still
    subst hself
    refine ⟨still (by rw [Request.conclusion?, hstage]) ?_, quiet (by simp) rfl⟩
    cases exit <;> rfl
  | departed exit =>
    simp only [hstage] at hself quiet still
    subst hself
    obtain ⟨⟨limit, next, rfl⟩, hdossier, hresponse⟩ := Request.depart_of_underWay hway
    exact ⟨still (by rw [Request.conclusion?, hstage]) hresponse, quiet (by simp) hdossier⟩
  | reading reader next =>
    simp only [hstage] at hself quiet still
    cases hevent : r.nextEvent? with
    | none =>
      simp only [hevent] at hself
      subst hself
      refine ⟨still ?_ (by rw [hstage]), quiet (by simp) rfl⟩
      rw [Request.conclusion?, hstage, hevent]
      rfl
    | some taken =>
      simp only [hevent] at hself
      subst hself
      exact ⟨Request.response?_receive hevent, quiet (by simp) (Request.dossier_receive hevent)⟩
  | _ =>
    rw [hstage] at hunder
    cases hunder

theorem Reachable.response?_of_conclusion (h : s.Reachable) (hr : s.requests[n]? = some r)
    (hconclusion : r.conclusion? = some response) :
    ∃ r', (s.perform (.advance n)).requests[n]? = some r' ∧
      r'.stage.response? = some response := by
  refine ⟨_, (h.affects (m := .advance n) rfl hr).self, ?_⟩
  rw [Circumstances.perform, Circumstances.advance]
  cases hstage : r.stage with
  | running =>
    simp only
    rw [Request.response?_turn hstage, hconclusion]
  | reading reader next =>
    cases hevent : r.nextEvent? with
    | some taken =>
      simp only
      rw [Request.response?_receive hevent, hconclusion]
    | none =>
      rw [Request.conclusion?, hstage, hevent] at hconclusion
      cases hconclusion
  | _ =>
    rw [Request.conclusion?, hstage] at hconclusion
    cases hconclusion

/-! ## Until the response is started -/

/-- A request under way has gathered what the operations carried out for it add, and if it has come
to a response, it came to it in the run. -/
theorem Reachable.gathers (h : s.Reachable) (hnone : s.requests[n]? = none)
    (moves : List (Move σ)) (hr : (s.performAll moves).requests[n]? = some r)
    (hway : r.stage.isUnderWay = true) :
    r.dossier.Gathers (s.executed n moves) ∧
      ∀ response, r.stage.response? = some response → ∃ ops, s.Concluded n moves response ops := by
  induction moves using List.reverseRecOn generalizing r with
  | nil => exact absurd (hnone.symm.trans hr) (by simp)
  | append_singleton moves m ih =>
    have hreachable := h.performAll moves
    rw [performAll_append] at hr
    by_cases hn : n < (s.performAll moves).requests.size
    · have hold := Array.getElem?_eq_getElem hn
      have hunder := hreachable.underWay_perform hold hr hway
      obtain ⟨hgathers, hconcluded⟩ := ih hold hunder
      rw [executed_append, executed, executed, List.append_nil]
      by_cases hm : m = .advance n
      · subst hm
        obtain ⟨hresponse, hgathers'⟩ := hreachable.underWay_self hold hr hway hgathers
        rw [executes?, if_pos rfl, hold, Option.bind_some]
        refine ⟨hgathers', fun response heq ↦ ?_⟩
        rw [hresponse, Option.or_eq_some_iff] at heq
        rcases heq with heq | ⟨-, heq⟩
        · obtain ⟨ops, hops⟩ := hconcluded response heq
          exact ⟨ops, hops.append _⟩
        · refine ⟨_, moves, [], rfl, ?_, rfl⟩
          rw [concludes?, if_pos rfl, hold, Option.bind_some, heq]
      · obtain ⟨hresponse, hheaders, hcookies⟩ := hreachable.underWay_other hold hm hr hway
        rw [executes?_of_ne_advance hm, Option.toList_none, List.append_nil]
        refine ⟨hgathers.congr hheaders hcookies, fun response heq ↦ ?_⟩
        obtain ⟨ops, hops⟩ := hconcluded response (hresponse ▸ heq)
        exact ⟨ops, hops.append _⟩
    · -- the request arrives with this move
      have hmissing : (s.performAll moves).requests[n]? = none :=
        Array.getElem?_eq_none (Nat.le_of_not_lt hn)
      obtain ⟨rfl, exchange, program, harrive⟩ :=
        (hreachable.change m).arrived hreachable.sound (Nat.le_of_not_lt hn) hr
      have hnew := (hreachable.arrival exchange program).1
      rw [← harrive] at hnew
      cases hr.symm.trans hnew
      rw [executed_append, h.executed_of_missing hmissing, executed, executed,
        executes?_of_missing hmissing]
      exact ⟨Dossier.gathers_new _ _, fun response heq ↦ by cases heq⟩

/-! ## After that -/

theorem isAnswering_of_response? {stage : Stage} (h : stage.response? = some response) :
    stage.isAnswering = true := by
  unfold Stage.response? at h
  split at h
  · rfl
  · rfl
  · cases h

theorem Reachable.executed_of_answering (h : s.Reachable) (hr : s.requests[n]? = some r)
    (hanswering : r.stage.isAnswering = true) (moves : List (Move σ)) :
    s.executed n moves = [] ∧ (s.performAll moves).concludes? n (.advance n) = none := by
  induction moves generalizing s r with
  | nil =>
    refine ⟨rfl, ?_⟩
    rw [Scheduler.performAll, List.foldl_nil, concludes?, if_pos rfl, hr, Option.bind_some,
      Request.conclusion?_of_isAnswering hanswering]
  | cons m moves ih =>
    have hrunning : r.stage ≠ .running := by
      intro hrunning
      rw [hrunning] at hanswering
      cases hanswering
    obtain ⟨r', told, hr', -, hstep⟩ := (h.change m).step h.sound hr
    obtain ⟨hexecuted, hconcludes⟩ := ih (h.move m) hr' (hstep.isAnswering hanswering)
    rw [executed, executes?_of_ne_running hr hrunning, hexecuted]
    exact ⟨rfl, hconcludes⟩

theorem Reachable.executed_of_concludes (h : s.Reachable)
    (hconcludes : s.concludes? n (.advance n) = some response) (later : List (Move σ)) :
    (s.perform (.advance n)).executed n later = [] ∧
      (s.performAll (.advance n :: later)).concludes? n (.advance n) = none := by
  rw [concludes?, if_pos rfl] at hconcludes
  obtain ⟨r, hr, hconclusion⟩ := Option.bind_eq_some_iff.mp hconcludes
  obtain ⟨r', hr', hresponse⟩ := h.response?_of_conclusion hr hconclusion
  exact (h.move _).executed_of_answering hr' (isAnswering_of_response? hresponse) later

theorem Reachable.concluded_unique (h : s.Reachable) {response' : Response}
    {ops' : List Operation} (hc : s.Concluded n moves response ops)
    (hc' : s.Concluded n moves response' ops') : response' = response ∧ ops' = ops := by
  obtain ⟨earlier, later, rfl, hconcludes, rfl⟩ := hc
  obtain ⟨earlier', later', hmoves, hconcludes', rfl⟩ := hc'
  -- if one moment came before the other, the request would have come to a response already
  have before {first second rest : List (Move σ)} {found found' : Response}
      (hsecond : second = first ++ .advance n :: rest)
      (hfirst : (s.performAll first).concludes? n (.advance n) = some found)
      (hfound : (s.performAll second).concludes? n (.advance n) = some found') : False := by
    have hnone := ((h.performAll first).executed_of_concludes hfirst rest).2
    rw [← performAll_append, ← hsecond, hfound] at hnone
    cases hnone
  rcases List.append_eq_append_iff.mp hmoves with ⟨rest, hsecond, hrest⟩ | ⟨rest, hsecond, hrest⟩
  · cases rest with
    | nil =>
      rw [List.append_nil] at hsecond
      subst hsecond
      exact ⟨Option.some.inj (hconcludes'.symm.trans hconcludes), rfl⟩
    | cons m rest =>
      cases hrest
      exact (before hsecond hconcludes hconcludes').elim
  · cases rest with
    | nil =>
      rw [List.append_nil] at hsecond
      subst hsecond
      exact ⟨Option.some.inj (hconcludes'.symm.trans hconcludes), rfl⟩
    | cons m rest =>
      cases hrest
      exact (before hsecond hconcludes' hconcludes).elim

/-- The operations carried out for a request that came to a response are those carried out before,
and the one with which it came to it. -/
theorem Reachable.executed_of_concluded (h : s.Reachable)
    (hc : s.Concluded n moves response ops) :
    s.executed n moves = ops ∨ ∃ op, s.executed n moves = ops ++ [op] ∧
      (op = .abort response ∨ ∃ matcher, op = .routePath matcher ∧ response = .notFound) := by
  obtain ⟨earlier, later, rfl, hconcludes, rfl⟩ := hc
  rw [executed_append, executed, ((h.performAll earlier).executed_of_concludes hconcludes later).1,
    List.append_nil]
  rw [concludes?, if_pos rfl] at hconcludes
  obtain ⟨r, hr, hconclusion⟩ := Option.bind_eq_some_iff.mp hconcludes
  rw [executes?, if_pos rfl, hr, Option.bind_some]
  rcases Request.executes?_of_conclusion hconclusion with hnone | habort | ⟨matcher, hmiss, rfl⟩
  · left
    rw [hnone, Option.toList_none, List.append_nil]
  · right
    rw [habort]
    exact ⟨_, rfl, .inl rfl⟩
  · right
    rw [hmiss]
    exact ⟨_, rfl, .inr ⟨matcher, rfl, rfl⟩⟩

theorem Reachable.sentHeaders_of_concluded (h : s.Reachable)
    (hc : s.Concluded n moves response ops) (sent : Response) :
    sent.sentHeaders (s.executed n moves) = sent.sentHeaders ops := by
  rcases h.executed_of_concluded hc with hsame | ⟨op, hlast, rfl | ⟨matcher, rfl, -⟩⟩
  · rw [hsame]
  · rw [hlast, Response.sentHeaders_append rfl rfl]
  · rw [hlast, Response.sentHeaders_append rfl rfl]

/-! ## What is sent -/

theorem Reachable.concluded_of_departed (h : s.Reachable) (hnone : s.requests[n]? = none)
    (hr : (s.performAll moves).requests[n]? = some r)
    (hstage : r.stage = .departed (.respond response)) :
    ∃ ops, s.Concluded n moves response ops ∧
      (r.dossier.assemble response).1.headers = response.sentHeaders ops := by
  obtain ⟨hgathers, hconcluded⟩ := h.gathers hnone moves hr (by rw [hstage]; rfl)
  obtain ⟨ops, hops⟩ := hconcluded response (by rw [hstage]; rfl)
  refine ⟨ops, hops, ?_⟩
  rw [hgathers.assemble, h.sentHeaders_of_concluded hops]

theorem Reachable.history_of_missing (h : s.Reachable) (hnone : s.requests[n]? = none)
    (m : Move σ) : (s.perform m).history n = [] := by
  have hsize : s.requests.size ≤ n := Array.getElem?_eq_none_iff.mp hnone
  cases hr : (s.perform m).requests[n]? with
  | none => exact (h.move m).sound.numbered.history_eq_nil (Array.getElem?_eq_none_iff.mp hr)
  | some r =>
    obtain ⟨rfl, exchange, program, harrive⟩ := (h.change m).arrived h.sound hsize hr
    rw [harrive]
    exact (h.arrival exchange program).2

/-- Every call for a request was made with some move of the run, after the request had arrived. -/
theorem Reachable.exists_call (h : s.Reachable) (hnone : s.requests[n]? = none)
    (moves : List (Move σ)) {c : Call} (hc : c ∈ callsOf ((s.performAll moves).history n)) :
    ∃ earlier m later r r' told, moves = earlier ++ m :: later ∧
      (s.performAll earlier).requests[n]? = some r ∧
      ((s.performAll earlier).perform m).requests[n]? = some r' ∧
      Request.Step (s.performAll earlier).hooks (s.performAll earlier).config r (m.input n r) r'
        told ∧ c ∈ callsOf told := by
  induction moves using List.reverseRecOn with
  | nil =>
    have hsize : s.requests.size ≤ n := Array.getElem?_eq_none_iff.mp hnone
    have hempty : (s.performAll []).history n = [] := h.sound.numbered.history_eq_nil hsize
    rw [hempty] at hc
    cases hc
  | append_singleton moves m ih =>
    have hreachable := h.performAll moves
    have hlast : s.performAll (moves ++ [m]) = (s.performAll moves).perform m :=
      performAll_append s moves [m]
    rw [hlast] at hc
    cases hold : (s.performAll moves).requests[n]? with
    | some r =>
      obtain ⟨r', told, hr', hhistory, hstep⟩ := (hreachable.change m).step hreachable.sound hold
      rw [hhistory, callsOf_append, List.mem_append] at hc
      rcases hc with hbefore | hnow
      · obtain ⟨earlier, m', later, hearlier⟩ := ih hbefore
        obtain ⟨r, r', told, rfl, hcall⟩ := hearlier
        exact ⟨earlier, m', later ++ [m], r, r', told, by simp, hcall⟩
      · exact ⟨moves, m, [], r, r', told, rfl, hold, hr', hstep, hnow⟩
    | none =>
      rw [hreachable.history_of_missing hold m] at hc
      cases hc

theorem Reachable.started (h : s.Reachable) (hnone : s.requests[n]? = none)
    (moves : List (Move σ)) {status : Nat} {headers : Pairs} {reply : Reply}
    (hcall : .startResponse status headers reply ∈ callsOf ((s.performAll moves).history n)) :
    ∃ response ops, s.Concluded n moves response ops ∧ status = response.status ∧
      headers = response.sentHeaders ops := by
  obtain ⟨earlier, m, later, r, r', told, rfl, hr, -, hstep, hcall⟩ :=
    h.exists_call hnone moves hcall
  have hanswer := Request.mem_answersOf hcall
  rcases hstep.answers with hquiet | ⟨response, hstage, htold⟩ | ⟨failure, hstage, htold⟩
  · rw [hquiet] at hanswer
    cases hanswer
  · obtain ⟨ops, hops, hheaders⟩ := h.concluded_of_departed hnone hr hstage
    rw [htold, List.mem_singleton, Answer.response.injEq] at hanswer
    exact ⟨response, ops, hops.append _, hanswer.1, hanswer.2.trans hheaders⟩
  · rw [htold, List.mem_singleton] at hanswer
    cases hanswer

theorem advance_writing (c : Circumstances) {body : Bytes} {size : Nat} {x y z : σ}
    (hexchange : r.exchange = x) (hstage : r.stage = .writing (.new body size))
    (hwrites : r.writes = some ⟨[.writable], false⟩)
    (hbody : body ≠ []) (hsize : body.length ≤ size)
    (hready : Exchange.isReady x = (.ready, y)) (hwrite : Exchange.write y body = (.ok, z)) :
    (c.advance r).1.stage = .finishing ∧
      (c.advance r).2 = [.call (.isReady .ready), .call (.write body .ok)] := by
  have hfits : body.length ≤ max size 1 := hsize.trans (Nat.le_max_left size 1)
  have hwritten : ResponseWriter.writeAll (max size 1) (by omega) body r.exchange =
      ⟨.done, [], z, [.isReady .ready, .write body .ok]⟩ := by
    rw [hexchange]
    cases body with
    | nil => exact absurd rfl hbody
    | cons first more =>
      rw [ResponseWriter.writeAll, hready]
      dsimp only
      rw [List.take_of_length_le hfits, hwrite, List.drop_of_length_le hfits,
        ResponseWriter.writeAll]
      rfl
  have hnext : r.nextEvent? = some (.writable, { r with writes := some ⟨[], false⟩ }) := by
    rw [Request.nextEvent?, hstage]
    dsimp only
    rw [hwrites]
    rfl
  rw [Circumstances.advance, hstage]
  dsimp only
  rw [hnext]
  dsimp only
  rw [Request.receive, hstage]
  dsimp only
  rw [Request.receiveWrite, ResponseWriter.advance]
  dsimp only [ResponseWriter.new]
  rw [hwritten]
  exact ⟨rfl, rfl⟩

/-- What was sent of the response of the request with an ordinal, by the moves of a run that lead it
to `r` and make the calls. -/
structure Wired (s : Scheduler σ) (n : Nat) (moves : List (Move σ)) (r : Request σ)
    (calls : List Call) : Prop where
  /-- A response is started only for a request that came to one. -/
  concluded : ∀ {status : Nat} {headers : Pairs} {reply : Reply},
    .startResponse status headers reply ∈ calls →
      ∃ response ops, s.Concluded n moves response ops
  /-- It is started at most once. -/
  once : calls.Pairwise fun c c' ↦ c.kind = .startResponse → c'.kind ≠ .startResponse
  /-- It has the status of the response that the request came to, and its headers, and then what the
  operations carried out up to then add. -/
  started : ∀ {response : Response} {ops : List Operation} {status : Nat} {headers : Pairs}
    {reply : Reply}, s.Concluded n moves response ops →
    .startResponse status headers reply ∈ calls →
      status = response.status ∧ headers = response.headers ++ ops.flatMap Operation.headers ++
        (ops.filterMap Operation.cookie?).map fun c ↦ ("set-cookie", c.headerValue)
  /-- No operation is carried out after that, but for the one with which the request came to the
  response, an abort or a dispatch that missed. -/
  last : ∀ {response : Response} {ops : List Operation}, s.Concluded n moves response ops →
    s.executed n moves = ops ∨ ∃ op, s.executed n moves = ops ++ [op] ∧
      (op = .abort response ∨ ∃ matcher, op = .routePath matcher ∧ response = .notFound)
  /-- If it was started and has been written and no error was sent, the pieces taken are its
  body. -/
  body : ∀ {response : Response} {ops : List Operation} {c : Call},
    s.Concluded n moves response ops → c ∈ calls → c.kind = .startResponse →
    r.stage = .finishing ∨ r.stage = .gone .completed ∨ r.stage = .gone .broken →
    (∀ c ∈ calls, c.kind ≠ .sendFallback) → written calls = response.body

/-- After every run, what was sent of each request is the response that it came to, with the headers
and cookies that its operations add. -/
theorem performAll_sent {config : Config} {hooks : Hooks} (h : start? config hooks = .ok s)
    (moves : List (Move σ)) (hr : (s.performAll moves).requests[n]? = some r) :
    s.Wired n moves r (callsOf ((s.performAll moves).history n)) := by
  have hstart := reachable_of_start? h
  have hnone : s.requests[n]? = none := by
    obtain ⟨-, rfl⟩ := start?_eq_ok h
    simp [new]
  obtain ⟨t, ht⟩ := hstart.fits hnone moves (fun _ _ hwas ↦ hwas) hr
  have horderly := ht.orderly
  exact {
    concluded := by
      intro status headers reply hcall
      obtain ⟨response, ops, hops, -⟩ := hstart.started hnone moves hcall
      exact ⟨response, ops, hops⟩
    once := by
      rw [ht.calls]
      exact horderly.start.imp fun hpair hkind hkind' ↦ (hpair hkind').1 hkind
    started := by
      intro response ops status headers reply hops hcall
      obtain ⟨response', ops', hops', hstatus, hheaders⟩ := hstart.started hnone moves hcall
      obtain ⟨rfl, rfl⟩ := hstart.concluded_unique hops hops'
      exact ⟨hstatus, hheaders⟩
    last := hstart.executed_of_concluded
    body := by
      intro response ops c hops hcall hkind hstage hfallback
      have hopening : t.opening ≠ [] :=
        List.ne_nil_of_mem (horderly.mem_opening (ht.calls ▸ hcall) hkind)
      have hconcluding : r.stage.isConcluding = true := by
        rcases hstage with hstage | hstage | hstage <;> rw [hstage] <;> rfl
      obtain ⟨response', early, ⟨earlier, r', ⟨later, rfl⟩, hr', hstage', -⟩, hbody⟩ :=
        ht.written hconcluding hopening hfallback
      obtain ⟨ops', hops', -⟩ := hstart.concluded_of_departed hnone hr' hstage'
      rw [hbody, (hstart.concluded_unique hops (hops'.append later)).1] }

/-- A cookie. -/
def plainCookie : Cookie := ⟨"a", "b", none, none, false, false⟩

/-- A program that adds a header, a cookie under another path, and a header behind its body. -/
def addsAndReads : Program :=
  .flatMap (.suspend (.addHeaders [("x-first", "1")])) fun _ ↦
    .flatMap (.suspend (.continueWith "/" (.suspend (.addCookie plainCookie)))) fun _ ↦
      .flatMap (.suspend (.readBody 4)) fun _ ↦ .suspend (.addHeaders [("x-last", "2")])

/-- An exchange whose body comes in one piece of five bytes. -/
def fiveBytes : Scripted := { Scripted.new default with bodyEvents := [.data [1, 2, 3, 4, 5]] }

/-- A request with that program and such an exchange gets the slot, the scheduler is stopped, and
the request moves on until it is to look at its body. -/
def untilBody : List (Move Scripted) :=
  [.arrive fiveBytes addsAndReads, .advance 0, .stop] ++ List.replicate 7 (.advance 0)

/-- Its body is too large, so it comes to its response, and then this is written. -/
def oversized : List (Move Scripted) := untilBody ++ .advance 0 :: List.replicate 2 (.advance 0)

theorem reading_untilBody : ∃ dossier next, (oneWorker.performAll untilBody).requests[0]? = some
    { ordinal := 0, dossier, program := none, closed := false, writes := none
      exchange := fiveBytes
      stage := .reading (.new 4) next
      reads := some ⟨[.data [1, 2, 3, 4, 5]], false⟩ } :=
  ⟨_, _, by cbv⟩

theorem finishing_oversized : ∃ r, (oneWorker.performAll oversized).requests[0]? = some r ∧
    r.stage = .finishing ∧ (callsOf ((oneWorker.performAll oversized).history 0)).map Call.kind =
      [.readBody, .startResponse, .isReady, .write] := by
  have hstart : oneWorker.Reachable :=
    reachable_of_start? (rfl : start? (.sized 1) (.plain .normal) = .ok oneWorker)
  have hreachable := hstart.performAll untilBody
  have hbefore : callsOf ((oneWorker.performAll untilBody).history 0) = [.readBody .ok] := by cbv
  obtain ⟨dossier, next, hreading⟩ := reading_untilBody
  have hread := hreachable.affects (m := .advance 0) rfl hreading
  have hstarted := (hreachable.move (.advance 0)).affects (m := .advance 0) rfl hread.self
  obtain ⟨r, hr, hstage, hwrites, hexchange⟩ : ∃ r,
      (((oneWorker.performAll untilBody).perform (.advance 0)).perform (.advance 0)).requests[0]? =
        some r ∧
      r.stage = .writing (.new (Response.tooLarge 4).body
        ((oneWorker.performAll untilBody).perform (.advance 0)).config.writeChunkSize) ∧
      r.writes = some ⟨[.writable], false⟩ ∧ r.exchange = fiveBytes :=
    ⟨_, hstarted.self, rfl, rfl, rfl⟩
  have hsent := ((hreachable.move (.advance 0)).move (.advance 0)).affects (m := .advance 0) rfl hr
  have hconfig : ((oneWorker.performAll untilBody).perform (.advance 0)).config = .sized 1 :=
    (hreachable.frame_performAll [.advance 0]).1.trans (hstart.frame_performAll untilBody).1
  rw [hconfig] at hstage
  obtain ⟨hfinishing, hwritten⟩ := advance_writing
    ((((oneWorker.performAll untilBody).perform (.advance 0)).perform (.advance 0)).circumstances r)
    hexchange hstage hwrites (by decide) (by decide) rfl rfl
  have hlast : oneWorker.performAll oversized =
      (((oneWorker.performAll untilBody).perform (.advance 0)).perform (.advance 0)).perform
        (.advance 0) := performAll_append oneWorker untilBody _
  rw [hlast]
  refine ⟨_, hsent.self, hfinishing, ?_⟩
  rw [hsent.told.trans (congrArg (_ ++ ·) hwritten), hstarted.told, hread.told, callsOf_append,
    callsOf_append, callsOf_append, hbefore]
  rfl

/-- What the program added before its body goes with the response, and what it would add behind it
does not. -/
theorem performAll_sent_oversized :
    start? (.sized 1) (.plain .normal) = .ok oneWorker ∧
      ∃ r, (oneWorker.performAll oversized).requests[0]? = some r ∧ r.stage = .finishing ∧
        oneWorker.Concluded 0 oversized (.tooLarge 4)
          [.addHeaders [("x-first", "1")], .continueWith "/" (.suspend (.addCookie plainCookie)),
            .addCookie plainCookie, .readBody 4] ∧
        (∃ status headers reply, .startResponse status headers reply ∈
            callsOf ((oneWorker.performAll oversized).history 0) ∧ status = 413 ∧
          headers = (Response.tooLarge 4).headers ++ [("x-first", "1"), ("set-cookie", "a=b")]) ∧
        written (callsOf ((oneWorker.performAll oversized).history 0)) =
          (Response.tooLarge 4).body := by
  have hstart : start? (.sized 1) (.plain .normal) = .ok oneWorker := rfl
  have hconcluded : oneWorker.Concluded 0 oversized (.tooLarge 4)
      [.addHeaders [("x-first", "1")], .continueWith "/" (.suspend (.addCookie plainCookie)),
        .addCookie plainCookie, .readBody 4] := by
    refine ⟨untilBody, _, rfl, ?_, by cbv⟩
    obtain ⟨dossier, next, hreading⟩ := reading_untilBody
    rw [concludes?, if_pos rfl, hreading]
    rfl
  obtain ⟨r, hr, hfinishing, hkinds⟩ := finishing_oversized
  have hwired := performAll_sent hstart oversized hr
  generalize callsOf ((oneWorker.performAll oversized).history 0) = calls at hkinds hwired ⊢
  have hfallback (c : Call) (hc : c ∈ calls) : c.kind ≠ .sendFallback := by
    have hkind := List.mem_map_of_mem (f := Call.kind) hc
    rw [hkinds] at hkind
    intro heq
    rw [heq] at hkind
    simp at hkind
  obtain ⟨c, hc, hkind⟩ : ∃ c ∈ calls, c.kind = .startResponse := by
    rw [← List.mem_map, hkinds]
    simp
  refine ⟨hstart, r, hr, hfinishing, hconcluded, ?_,
    hwired.body hconcluded hc hkind (.inl hfinishing) hfallback⟩
  cases c with
  | startResponse status headers reply =>
    obtain ⟨hstatus, hheaders⟩ := hwired.started hconcluded hc
    exact ⟨status, headers, reply, hc, hstatus, by rw [hheaders]; rfl⟩
  | _ => cases hkind

end Scheduler

end Turnstile
