import Mathlib.Computability.RegularExpressions
import Turnstile.Proofs.Request.Step

/-!
# The calls on an exchange

What an exchange may rely on, stated of the calls that are told of a request. Their kinds make up
a word, and the words that may come up are those of a regular expression, or the beginnings of such
words. Beside this come the things an expression cannot say: a piece is written only right after
the exchange said that it is ready, and the exchange is declared over only when it took the whole
body, or when an error was sent past the usual way.

## Transcripts

The calls are cut into five parts, one for each phase of a request (`Transcript`). That the parts
are in order (`Transcript.Orderly`) is what each move keeps, and what an exchange may rely on
follows from it.
-/

namespace Turnstile

/-- The kinds of calls on an exchange. -/
inductive Call.Kind where
  | readBody
  | startResponse
  | isReady
  | write
  | sendFallback
  | complete
  | reject
  deriving DecidableEq, Repr

/-- The kind of a call. -/
def Call.kind : Call → Call.Kind
  | .readBody _ => .readBody
  | .startResponse _ _ _ => .startResponse
  | .isReady _ => .isReady
  | .write _ _ => .write
  | .sendFallback _ _ => .sendFallback
  | .complete _ => .complete
  | .reject _ _ => .reject

/-- The call ends the exchange. -/
def Call.isEnd (c : Call) : Bool := c.kind = .complete || c.kind = .reject

/-- The call that something that happened is. -/
def Happening.call? : Happening → Option Call
  | .call c => some c
  | _ => none

/-- The calls on an exchange: its body is read any number of times. Then it is refused, or the
response is started at most once and written, errors are sent past the usual way at most twice, and
it is declared over. -/
def protocol : RegularExpression Call.Kind :=
  .star (.char .readBody) *
    (.char .reject +
      (1 + .char .startResponse * .star (.char .isReady + .char .write)) *
        (1 + .char .sendFallback + .char .sendFallback * .char .sendFallback) * .char .complete)

namespace Request

/-- The calls among what happened. -/
def callsOf (told : List Happening) : List Call := told.filterMap Happening.call?

@[simp] theorem callsOf_append (told more : List Happening) :
    callsOf (told ++ more) = callsOf told ++ callsOf more := List.filterMap_append

@[simp] theorem callsOf_map_call (calls : List Call) : callsOf (calls.map .call) = calls := by
  rw [callsOf, List.filterMap_map]
  exact List.filterMap_some

@[simp] theorem callsOf_map_cleaner (events : List (Cleanup.Event String)) :
    callsOf (events.map .cleaner) = [] := by
  rw [callsOf, List.filterMap_map]
  exact List.filterMap_eq_nil_iff.mpr fun _ _ ↦ rfl

end Request

/-! ## Writing -/

/-- The bytes that the exchange took. -/
def written (calls : List Call) : Bytes :=
  calls.flatMap fun
    | .write chunk .ok => chunk
    | _ => []

@[simp] theorem written_append (calls more : List Call) :
    written (calls ++ more) = written calls ++ written more := List.flatMap_append

theorem written_eq_nil {calls : List Call} (h : ∀ c ∈ calls, c.kind ≠ .write) :
    written calls = [] := by
  refine List.flatMap_eq_nil_iff.mpr fun c hc ↦ ?_
  have hkind := h c hc
  cases c with
  | write chunk reply => exact absurd rfl hkind
  | _ => rfl

/-- Pieces are written only right after the exchange said that it is ready. -/
def Asks (calls : List Call) : Prop :=
  ∀ before chunk reply after, calls = before ++ .write chunk reply :: after →
    before.getLast? = some (.isReady .ready)

theorem asks_of_kind {calls : List Call} (h : ∀ c ∈ calls, c.kind ≠ .write) : Asks calls := by
  rintro before chunk reply after rfl
  exact absurd rfl (h (.write chunk reply) (by simp))

theorem asks_round (chunk : Bytes) (reply : Reply) :
    Asks [.isReady .ready, .write chunk reply] := by
  intro before chunk' reply' after h
  match before with
  | [] => cases h
  | [c] => cases h; rfl
  | c :: c' :: before =>
    have hlength := congrArg List.length h
    simp at hlength

theorem Asks.append {calls more : List Call} (h : Asks calls) (h' : Asks more) :
    Asks (calls ++ more) := by
  intro before chunk reply after heq
  rcases List.append_eq_append_iff.mp heq with ⟨rest, rfl, hmore⟩ | ⟨rest, rfl, hrest⟩
  · -- the piece is one of the later ones
    rw [List.getLast?_append, h' rest chunk reply after hmore]
    rfl
  · cases rest with
    | nil =>
      rw [List.nil_append] at hrest
      have hlast := h' [] chunk reply after hrest.symm
      cases hlast
    | cons c rest =>
      cases hrest
      exact h before chunk reply rest rfl

namespace ResponseWriter

variable {σ : Type} [Exchange σ]

theorem reply_error?_eq_none {reply : Reply} : reply.error? = none ↔ reply = .ok := by
  cases reply <;> simp [Reply.error?]

/-- What writing calls: it asks before each piece, and what the exchange took and what is left make
up what there was to write. -/
theorem writeAll_calls (chunkSize : Nat) (pos : 0 < chunkSize) (unsent : Bytes) (exchange : σ) :
    (∀ c ∈ (writeAll chunkSize pos unsent exchange).calls, c.kind = .isReady ∨ c.kind = .write) ∧
      Asks (writeAll chunkSize pos unsent exchange).calls ∧
      written (writeAll chunkSize pos unsent exchange).calls ++
        (writeAll chunkSize pos unsent exchange).unsent = unsent ∧
      ((writeAll chunkSize pos unsent exchange).progress = .done →
        (writeAll chunkSize pos unsent exchange).unsent = []) := by
  fun_induction writeAll chunkSize pos unsent exchange with
  | case1 exchange => exact ⟨by simp, asks_of_kind (by simp), rfl, fun _ ↦ rfl⟩
  | case2 exchange first more f exchange' hready =>
    exact ⟨by simp [Call.kind], asks_of_kind (by simp [Call.kind]), rfl, fun h ↦ by cases h⟩
  | case3 exchange first more exchange' hready =>
    exact ⟨by simp [Call.kind], asks_of_kind (by simp [Call.kind]), rfl, fun h ↦ by cases h⟩
  | case4 exchange first more exchange' hready chunk reply exchange'' hwrite e herror =>
    refine ⟨by simp [Call.kind], asks_round chunk reply, ?_, fun h ↦ by cases h⟩
    cases reply with
    | ok => cases herror
    | _ => rfl
  | case5 exchange first more exchange' hready chunk reply exchange'' hwrite hnone rest ih =>
    obtain ⟨hkinds, hasks, hwritten, hdone⟩ := ih
    obtain rfl := reply_error?_eq_none.mp hnone
    refine ⟨?_, (asks_round chunk .ok).append hasks, ?_, hdone⟩
    · simpa [Call.kind] using hkinds
    · calc written (.isReady .ready :: .write chunk .ok :: rest.calls) ++ rest.unsent
        _ = chunk ++ (written rest.calls ++ rest.unsent) := by simp [written]
        _ = chunk ++ (first :: more).drop chunkSize := by rw [hwritten]
        _ = first :: more := List.take_append_drop chunkSize (first :: more)

theorem advance_calls (w : ResponseWriter) (event : IoEvent) (exchange : σ) :
    (∀ c ∈ (w.advance event exchange).2.2.2, c.kind = .isReady ∨ c.kind = .write) ∧
      Asks (w.advance event exchange).2.2.2 ∧
      written (w.advance event exchange).2.2.2 ++ (w.advance event exchange).2.1.unsent =
        w.unsent ∧
      ((w.advance event exchange).1 = .done → (w.advance event exchange).2.1.unsent = []) := by
  cases event with
  | writable => exact writeAll_calls w.chunkSize w.chunkSize_pos w.unsent exchange
  | _ => exact ⟨by simp [advance], asks_of_kind (by simp [advance]), rfl, fun h ↦ by cases h⟩

end ResponseWriter

/-! ## The phases -/

/-- The calls on an exchange by phase. -/
structure Transcript where
  /-- The body is read. -/
  reads : List Call
  /-- The response is started. -/
  opening : List Call
  /-- It is written. -/
  pieces : List Call
  /-- Errors are sent past the usual way. -/
  fallbacks : List Call
  /-- The exchange is ended. -/
  ending : List Call

namespace Transcript

variable {t : Transcript}

/-- The calls before the first error. -/
def early (t : Transcript) : List Call := t.reads ++ t.opening ++ t.pieces

/-- The calls before the end. -/
def body (t : Transcript) : List Call := t.early ++ t.fallbacks

/-- All calls. -/
def calls (t : Transcript) : List Call := t.body ++ t.ending

/-- The phases are as they should be. -/
structure Orderly (t : Transcript) : Prop where
  /-- First the body is read. -/
  reads : ∀ c ∈ t.reads, c.kind = .readBody
  /-- The response is started at most once. -/
  opening : t.opening = [] ∨
    ∃ status headers reply, t.opening = [.startResponse status headers reply]
  /-- A response is written only after it was started. -/
  started : t.opening = [] → t.pieces = []
  /-- Then it is asked whether the exchange is ready, and pieces are written. -/
  pieces : ∀ c ∈ t.pieces, c.kind = .isReady ∨ c.kind = .write
  /-- Pieces are written only when the exchange is ready. -/
  asks : Asks t.pieces
  /-- Then errors are sent. -/
  fallbacks : ∀ c ∈ t.fallbacks, c.kind = .sendFallback
  /-- No more than two are sent. -/
  fallbacks_le : t.fallbacks.length ≤ 2
  /-- At last the exchange is declared over, or refused if nothing was sent. -/
  ending : t.ending = [] ∨ (∃ fault?, t.ending = [.complete fault?]) ∨
    (∃ reason fault?, t.ending = [.reject reason fault?]) ∧ t.opening = [] ∧ t.fallbacks = []

/-! ### The words of the protocol -/

theorem mem_star {α : Type} {P : RegularExpression α} {w : List α}
    (h : ∀ x ∈ w, [x] ∈ P.matches') : w ∈ P.star.matches' := by
  rw [RegularExpression.matches'_star, Language.mem_kstar]
  refine ⟨w.map fun x ↦ [x], (List.flatMap_singleton' w).symm, fun y hy ↦ ?_⟩
  obtain ⟨x, hx, rfl⟩ := List.mem_map.mp hy
  exact h x hx

theorem Orderly.opening_mem (h : t.Orderly) :
    (t.opening ++ t.pieces).map Call.kind ∈
      (1 + .char .startResponse * .star (.char .isReady + .char .write) :
        RegularExpression Call.Kind).matches' := by
  rw [RegularExpression.matches'_add, RegularExpression.matches'_epsilon,
    RegularExpression.matches'_mul, Language.mem_add]
  rcases h.opening with hnone | ⟨status, headers, reply, hone⟩
  · left
    rw [hnone, h.started hnone]
    rfl
  · right
    rw [hone, List.map_append]
    refine Language.append_mem_mul rfl (mem_star fun x hx ↦ ?_)
    obtain ⟨c, hc, rfl⟩ := List.mem_map.mp hx
    exact (h.pieces c hc).imp (congrArg ([·])) (congrArg ([·]))

theorem Orderly.fallbacks_mem (h : t.Orderly) :
    t.fallbacks.map Call.kind ∈
      (1 + .char .sendFallback + .char .sendFallback * .char .sendFallback :
        RegularExpression Call.Kind).matches' := by
  have hkinds := h.fallbacks
  have hle := h.fallbacks_le
  rw [RegularExpression.matches'_add, RegularExpression.matches'_add,
    RegularExpression.matches'_epsilon, RegularExpression.matches'_mul, Language.mem_add,
    Language.mem_add]
  match hlist : t.fallbacks with
  | [] => exact .inl (.inl rfl)
  | [c] =>
    rw [hlist] at hkinds
    refine .inl (.inr ?_)
    rw [List.map_singleton, hkinds c (by simp)]
    rfl
  | [c, c'] =>
    rw [hlist] at hkinds
    refine .inr ?_
    rw [List.map_cons, List.map_singleton, hkinds c (by simp), hkinds c' (by simp)]
    exact Language.append_mem_mul (a := [Call.Kind.sendFallback]) rfl rfl
  | c :: c' :: c'' :: more =>
    rw [hlist] at hle
    simp at hle

/-- Orderly calls that end are a word of the protocol, and others become one when the exchange is
declared over. -/
theorem Orderly.exists_word (h : t.Orderly) :
    ∃ rest, t.calls.map Call.kind ++ rest ∈ protocol.matches' := by
  have hreads : t.reads.map Call.kind ∈ (RegularExpression.char Call.Kind.readBody).star.matches' :=
    mem_star fun x hx ↦ by
      obtain ⟨c, hc, rfl⟩ := List.mem_map.mp hx
      exact congrArg ([·]) (h.reads c hc)
  have hcomplete : t.body.map Call.kind ++ [.complete] ∈ protocol.matches' := by
    have hsplit : t.body.map Call.kind ++ [.complete] = t.reads.map Call.kind ++
        ((t.opening ++ t.pieces).map Call.kind ++ t.fallbacks.map Call.kind ++ [.complete]) := by
      simp [body, early]
    have hend : [.complete] ∈ (RegularExpression.char Call.Kind.complete).matches' := rfl
    rw [hsplit, protocol, RegularExpression.matches'_mul, RegularExpression.matches'_add,
      RegularExpression.matches'_mul, RegularExpression.matches'_mul]
    exact Language.append_mem_mul hreads (.inr
      (Language.append_mem_mul (Language.append_mem_mul h.opening_mem h.fallbacks_mem) hend))
  rcases h.ending with hnone | ⟨fault?, hend⟩ | ⟨⟨reason, fault?, hend⟩, hopening, hfallbacks⟩
  · refine ⟨[.complete], ?_⟩
    rw [calls, hnone, List.append_nil]
    exact hcomplete
  · refine ⟨[], ?_⟩
    rw [calls, hend, List.append_nil, List.map_append]
    exact hcomplete
  · refine ⟨[], ?_⟩
    rw [calls, body, early, hend, hopening, hfallbacks, h.started hopening]
    simp only [List.append_nil, List.map_append]
    rw [protocol, RegularExpression.matches'_mul, RegularExpression.matches'_add]
    exact Language.append_mem_mul hreads (.inl rfl)

/-! ### What else an exchange may rely on -/

theorem Orderly.opening_kind (h : t.Orderly) {c : Call} (hc : c ∈ t.opening) :
    c.kind = .startResponse := by
  rcases h.opening with hnone | ⟨status, headers, reply, hone⟩
  · rw [hnone] at hc
    cases hc
  · rw [hone, List.mem_singleton] at hc
    rw [hc, Call.kind]

theorem Orderly.ending_kind (h : t.Orderly) {c : Call} (hc : c ∈ t.ending) :
    c.kind = .complete ∨ c.kind = .reject := by
  rcases h.ending with hend | ⟨fault?, hend⟩ | ⟨⟨reason, fault?, hend⟩, -, -⟩ <;> rw [hend] at hc
  · cases hc
  · rw [List.mem_singleton.mp hc]
    exact .inl rfl
  · rw [List.mem_singleton.mp hc]
    exact .inr rfl

theorem Orderly.body_isEnd (h : t.Orderly) {c : Call} (hc : c ∈ t.body) : c.isEnd = false := by
  rw [body, early, List.mem_append, List.mem_append, List.mem_append] at hc
  rw [Call.isEnd]
  rcases hc with ((hc | hc) | hc) | hc
  · rw [h.reads c hc]
    rfl
  · rw [h.opening_kind hc]
    rfl
  · rcases h.pieces c hc with hkind | hkind <;> rw [hkind] <;> rfl
  · rw [h.fallbacks c hc]
    rfl

theorem Orderly.ending_isEnd (h : t.Orderly) {c : Call} (hc : c ∈ t.ending) : c.isEnd = true := by
  rw [Call.isEnd]
  rcases h.ending_kind hc with hkind | hkind <;> rw [hkind] <;> rfl

theorem Orderly.filter_isEnd (h : t.Orderly) : t.calls.filter Call.isEnd = t.ending := by
  rw [calls, List.filter_append, List.filter_eq_nil_iff.mpr fun c hc ↦ by simp [h.body_isEnd hc],
    List.nil_append]
  exact List.filter_eq_self.mpr fun c hc ↦ h.ending_isEnd hc

theorem Orderly.ending_length (h : t.Orderly) : t.ending.length ≤ 1 := by
  rcases h.ending with hend | ⟨fault?, hend⟩ | ⟨⟨reason, fault?, hend⟩, -, -⟩ <;> simp [hend]

theorem Orderly.last (h : t.Orderly) {before after : List Call} {c : Call}
    (hcalls : t.calls = before ++ c :: after) (hc : c.isEnd = true) :
    before = t.body ∧ t.ending = [c] ∧ after = [] := by
  have hend : t.ending = [c] := by
    have hmem : c ∈ t.ending := by
      rw [← h.filter_isEnd]
      exact List.mem_filter.mpr ⟨by rw [hcalls]; simp, hc⟩
    obtain ⟨e, he⟩ := List.length_eq_one_iff.mp
      (Nat.le_antisymm h.ending_length (List.length_pos_of_mem hmem))
    rw [he, List.mem_singleton] at hmem
    rw [he, hmem]
  rw [calls, hend] at hcalls
  -- were anything behind it, the call would stand among those before the end
  rcases List.append_eq_append_iff.mp hcalls with ⟨rest, hbefore, hrest⟩ | ⟨rest, hbody, hrest⟩
  · cases rest with
    | nil =>
      cases hrest
      exact ⟨by rw [hbefore, List.append_nil], hend, rfl⟩
    | cons d rest =>
      have hlength := congrArg List.length hrest
      simp at hlength
  · cases rest with
    | nil =>
      cases hrest
      exact ⟨by rw [hbody, List.append_nil], hend, rfl⟩
    | cons d rest =>
      cases hrest
      have hnot := h.body_isEnd (c := c) (by rw [hbody]; simp)
      rw [hc] at hnot
      cases hnot

theorem Orderly.start (h : t.Orderly) :
    t.calls.Pairwise fun c c' ↦ c'.kind = .startResponse →
      c.kind ≠ .startResponse ∧ c.kind ≠ .sendFallback := by
  have others {cs : List Call} (hcs : ∀ c ∈ cs, c.kind ≠ .startResponse) {R : Call → Call → Prop} :
      cs.Pairwise fun c c' ↦ c'.kind = .startResponse → R c c' :=
    List.pairwise_of_forall_mem_list fun c _ c' hc' hkind ↦ absurd hkind (hcs c' hc')
  have hpieces (c : Call) (hc : c ∈ t.pieces) : c.kind ≠ .startResponse := by
    rcases h.pieces c hc with hkind | hkind <;> rw [hkind] <;> simp
  have hending (c : Call) (hc : c ∈ t.ending) : c.kind ≠ .startResponse := by
    rcases h.ending_kind hc with hkind | hkind <;> rw [hkind] <;> simp
  have hreads (c : Call) (hc : c ∈ t.reads) :
      c.kind ≠ .startResponse ∧ c.kind ≠ .sendFallback := by
    rw [h.reads c hc]
    simp
  have hopening : t.opening.Pairwise fun c c' ↦ c'.kind = .startResponse →
      c.kind ≠ .startResponse ∧ c.kind ≠ .sendFallback := by
    rcases h.opening with hnone | ⟨status, headers, reply, hone⟩
    · rw [hnone]
      exact .nil
    · rw [hone]
      exact List.pairwise_singleton _ _
  rw [calls, body, early]
  refine List.pairwise_append.mpr ⟨List.pairwise_append.mpr ⟨List.pairwise_append.mpr
    ⟨List.pairwise_append.mpr ⟨others fun c hc ↦ (hreads c hc).1, hopening,
      fun c hc c' _ _ ↦ hreads c hc⟩, others hpieces, fun c _ c' hc' hkind ↦ ?_⟩,
    others fun c hc ↦ by rw [h.fallbacks c hc]; simp, fun c _ c' hc' hkind ↦ ?_⟩,
    others hending, fun c _ c' hc' hkind ↦ ?_⟩
  · exact absurd hkind (hpieces c' hc')
  · rw [h.fallbacks c' hc'] at hkind
    cases hkind
  · exact absurd hkind (hending c' hc')

theorem Orderly.ready (h : t.Orderly) : Asks t.calls := by
  have hreads : Asks t.reads := asks_of_kind fun c hc ↦ by
    rw [h.reads c hc]
    simp
  have hopening : Asks t.opening := asks_of_kind fun c hc ↦ by
    rw [h.opening_kind hc]
    simp
  have hfallbacks : Asks t.fallbacks := asks_of_kind fun c hc ↦ by
    rw [h.fallbacks c hc]
    simp
  have hending : Asks t.ending := asks_of_kind fun c hc ↦ by
    rcases h.ending_kind hc with hkind | hkind <;> rw [hkind] <;> simp
  exact (((hreads.append hopening).append h.asks).append hfallbacks).append hending

end Transcript

end Turnstile
