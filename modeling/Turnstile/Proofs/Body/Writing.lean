import Turnstile.Proofs.Request.Calls

/-!
# What a writer sends

A writer sends exactly its body, whatever the exchange says to it and whatever events come up. The
pieces that the exchange took make up the beginning of the body, and what the writer still holds is
the rest. Each piece that is offered is the next one of the body. It is as long as it may be, so
that only the last piece of the body can be shorter than the others, and the exchange was asked
right before whether it is ready. A piece that is refused stays with the writer.

## How writing may go

The relation `Writes` says once how writing may go, and what each piece is and how writing ends are
read off it by induction. One event keeps what a writer is known to have sent (`Sends.advance`),
and so do any events.
-/

namespace Turnstile

/-- The error that a call of a writer ends with. -/
def Call.trouble? : Call → Option IoError
  | .isReady (.fault f) => some (.ofFault f)
  | .write _ reply => reply.error?
  | _ => none

theorem written_of_trouble {c : Call} (h : c.trouble? ≠ none) : written [c] = [] := by
  cases c with
  | write chunk reply =>
    cases reply with
    | ok => exact absurd rfl h
    | _ => rfl
  | _ => rfl

theorem append_eq_append_cons {α : Type} {xs ys before after : List α} {a : α}
    (h : xs ++ ys = before ++ a :: after) :
    (∃ more, before = xs ++ more ∧ ys = more ++ a :: after) ∨ ∃ rest, xs = before ++ a :: rest := by
  rcases List.append_eq_append_iff.mp h with ⟨more, hbefore, hys⟩ | ⟨rest, hxs, hrest⟩
  · exact .inl ⟨more, hbefore, hys⟩
  · cases rest with
    | nil => exact .inl ⟨[], by rw [hxs, List.append_nil, List.append_nil], hrest.symm⟩
    | cons b rest =>
      cases hrest
      exact .inr ⟨rest, hxs⟩

namespace ResponseWriter

/-- The exchange answers to the calls of a writer as is told of them, from one state to another. -/
inductive Plays {σ : Type} [Exchange σ] : σ → List Call → σ → Prop where
  | nil (x : σ) : Plays x [] x
  | isReady {x x' x'' : σ} {answer : Readiness} {calls : List Call}
      (asked : Exchange.isReady x = (answer, x')) (rest : Plays x' calls x'') :
      Plays x (.isReady answer :: calls) x''
  | write {x x' x'' : σ} {chunk : Bytes} {reply : Reply} {calls : List Call}
      (wrote : Exchange.write x chunk = (reply, x')) (rest : Plays x' calls x'') :
      Plays x (.write chunk reply :: calls) x''

theorem Plays.append {σ : Type} [Exchange σ] {x x' x'' : σ} {calls more : List Call}
    (h : Plays x calls x') (h' : Plays x' more x'') : Plays x (calls ++ more) x'' := by
  induction h with
  | nil => exact h'
  | isReady asked _ ih => exact .isReady asked (ih h')
  | write wrote _ ih => exact .write wrote (ih h')

/-! ## One run of the loop -/

/-- How writing with pieces of at most `size` bytes goes: from what there is to write to the calls
made, what they mean for the body, and what is left. -/
inductive Writes (size : Nat) : Bytes → List Call → Progress → Bytes → Prop where
  /-- There is nothing to write. -/
  | done : Writes size [] [] .done []
  /-- The exchange is not ready. -/
  | busy {unsent : Bytes} (left : unsent ≠ []) :
      Writes size unsent [.isReady .busy] .pending unsent
  /-- It breaks off when it is asked. -/
  | fault {unsent : Bytes} (left : unsent ≠ []) (f : Fault) :
      Writes size unsent [.isReady (.fault f)] (.failed (.ofFault f)) unsent
  /-- It does not take the next piece. -/
  | refused {unsent : Bytes} (left : unsent ≠ []) {reply : Reply} {e : IoError}
      (error : reply.error? = some e) :
      Writes size unsent [.isReady .ready, .write (unsent.take size) reply] (.failed e) unsent
  /-- It takes the next piece. -/
  | took {unsent : Bytes} (left : unsent ≠ []) {calls : List Call} {progress : Progress}
      {rest : Bytes} (more : Writes size (unsent.drop size) calls progress rest) :
      Writes size unsent (.isReady .ready :: .write (unsent.take size) .ok :: calls) progress rest

theorem writes_writeAll {σ : Type} [Exchange σ] (size : Nat) (pos : 0 < size) (unsent : Bytes)
    (exchange : σ) :
    Writes size unsent (writeAll size pos unsent exchange).calls
      (writeAll size pos unsent exchange).progress (writeAll size pos unsent exchange).unsent := by
  fun_induction writeAll size pos unsent exchange with
  | case1 => exact .done
  | case2 exchange first more f => exact .fault (List.cons_ne_nil first more) f
  | case3 exchange first more => exact .busy (List.cons_ne_nil first more)
  | case4 exchange first more _ _ chunk reply _ _ e herror =>
    exact .refused (List.cons_ne_nil first more) herror
  | case5 exchange first more _ _ chunk reply _ _ hnone rest ih =>
    obtain rfl := reply_error?_eq_none.mp hnone
    exact .took (List.cons_ne_nil first more) ih

/-- What is told of writing is what was called. -/
theorem plays_writeAll {σ : Type} [Exchange σ] (size : Nat) (pos : 0 < size) (unsent : Bytes)
    (exchange : σ) :
    Plays exchange (writeAll size pos unsent exchange).calls
      (writeAll size pos unsent exchange).exchange := by
  fun_induction writeAll size pos unsent exchange with
  | case1 exchange => exact .nil exchange
  | case2 _ _ _ _ _ hready => exact .isReady hready (.nil _)
  | case3 _ _ _ _ hready => exact .isReady hready (.nil _)
  | case4 _ _ _ _ hready _ _ _ hwrite => exact .isReady hready (.write hwrite (.nil _))
  | case5 _ _ _ _ hready _ _ _ hwrite _ _ ih => exact .isReady hready (.write hwrite ih)

section Writes

variable {size : Nat} {unsent rest : Bytes} {calls before after : List Call} {progress : Progress}
  {chunk : Bytes} {reply : Reply}

theorem Writes.next (h : Writes size unsent calls progress rest)
    (hcalls : calls = before ++ .write chunk reply :: after) :
    ∃ left, written before ++ left = unsent ∧ left ≠ [] ∧ chunk = left.take size := by
  induction h generalizing before with
  | done | busy | fault => simp_all [List.cons_eq_append_iff]
  | @refused unsent left reply' e error =>
    match before with
    | [] => cases hcalls
    | [_] => cases hcalls; exact ⟨unsent, rfl, left, rfl⟩
    | _ :: _ :: before => simp at hcalls
  | @took unsent left calls progress rest more ih =>
    match before with
    | [] => cases hcalls
    | [_] => cases hcalls; exact ⟨unsent, rfl, left, rfl⟩
    | _ :: _ :: before =>
      cases hcalls
      obtain ⟨left', hleft, hne, hchunk⟩ := ih rfl
      refine ⟨left', ?_, hne, hchunk⟩
      calc written (.isReady .ready :: .write (unsent.take size) .ok :: before) ++ left'
        _ = unsent.take size ++ (written before ++ left') := by simp [written]
        _ = unsent.take size ++ unsent.drop size := by rw [hleft]
        _ = unsent := List.take_append_drop size unsent

theorem Writes.done_iff (h : Writes size unsent calls progress rest) :
    progress = .done ↔ rest = [] := by
  induction h with
  | done => simp
  | busy left | fault left | refused left => simp [left]
  | took left more ih => exact ih

theorem Writes.pending_iff (h : Writes size unsent calls progress rest) :
    progress = .pending ↔ .isReady .busy ∈ calls := by
  induction h with
  | done | busy | fault | refused => simp
  | took left more ih => simpa using ih

theorem Writes.failed_iff (h : Writes size unsent calls progress rest) (e : IoError) :
    progress = .failed e ↔ ∃ c ∈ calls, c.trouble? = some e := by
  induction h with
  | done | busy | fault => simp [Call.trouble?]
  | refused left error => simp [Call.trouble?, error]
  | took left more ih => simpa [Call.trouble?, Reply.error?] using ih

/-- The writer stops at this call. -/
def IsLast (c : Call) : Prop := c = .isReady .busy ∨ c.trouble? ≠ none

theorem IsLast.written {c : Call} (h : IsLast c) : Turnstile.written [c] = [] := by
  rcases h with rfl | htrouble
  · rfl
  · exact written_of_trouble htrouble

/-- A call at which the writer stops is the last one, and something is left. -/
theorem Writes.eq_nil_of_isLast {c : Call} (h : Writes size unsent calls progress rest)
    (hcalls : calls = before ++ c :: after) (hc : IsLast c) : after = [] ∧ rest ≠ [] := by
  induction h generalizing before with
  | done => simp at hcalls
  | busy left | fault left =>
    match before with
    | [] => cases hcalls; exact ⟨rfl, left⟩
    | _ :: before => simp at hcalls
  | refused left error =>
    match before with
    | [] => cases hcalls; simp [IsLast, Call.trouble?] at hc
    | [_] => cases hcalls; exact ⟨rfl, left⟩
    | _ :: _ :: before => simp at hcalls
  | took left more ih =>
    match before with
    | [] => cases hcalls; simp [IsLast, Call.trouble?] at hc
    | [_] => cases hcalls; simp [IsLast, Call.trouble?, Reply.error?] at hc
    | _ :: _ :: before => cases hcalls; exact ih rfl

end Writes

/-! ## One event -/

/-- What is known of the answer to an event on which a writer may write, when `calls` were made
before. -/
structure Answer {σ : Type} (body : Bytes) (calls : List Call)
    (told : Progress × ResponseWriter × σ × List Call) : Prop where
  /-- The writer is done exactly when the exchange took all of the body. -/
  done : told.1 = .done ↔ written (calls ++ told.2.2.2) = body
  /-- It waits exactly when the exchange said that it is not ready. -/
  pending : told.1 = .pending ↔ .isReady .busy ∈ told.2.2.2
  /-- It fails exactly when a call broke off or ended with an error, and with that error. -/
  failed (e : IoError) : told.1 = .failed e ↔ ∃ c ∈ told.2.2.2, c.trouble? = some e
  /-- A call at which it stops is the last one. There are bytes left, and as many are outstanding
  as before the call. -/
  stops {before after : List Call} {c : Call} : told.2.2.2 = before ++ c :: after → IsLast c →
    after = [] ∧ 0 < told.2.1.remaining ∧
      told.2.1.remaining = body.length - (written (calls ++ before)).length

/-- What is known of the answer to any event. -/
structure Answers {σ : Type} [Exchange σ] (body : Bytes) (calls : List Call) (w : ResponseWriter)
    (x : σ) : Prop where
  /-- Pieces of another body do not concern it. -/
  data (chunk : Bytes) : w.advance (.data chunk) x = (.pending, w, x, [])
  /-- Neither does the end of another body. -/
  allRead : w.advance .allRead x = (.pending, w, x, [])
  /-- It fails with the connection. -/
  error (e : IoError) : w.advance (.error e) x = (.failed e, w, x, [])
  /-- It writes when the exchange is writable. -/
  writable : Answer body calls (w.advance .writable x)

/-- What is known of a piece that is offered after some calls. -/
structure Piece (body : Bytes) (size : Nat) (before : List Call) (chunk : Bytes) : Prop where
  /-- It is what comes next in the body. -/
  next : written before ++ chunk <+: body
  /-- It is not empty. -/
  nonempty : chunk ≠ []
  /-- It is as long as it may be. -/
  length_eq : chunk.length = min size (body.length - (written before).length)
  /-- Only the last piece of the body is shorter than the others. -/
  last : chunk.length < size → written before ++ chunk = body

/-- What is so of a writer that made some calls. -/
structure Sends (body : Bytes) (size : Nat) (calls : List Call) (w : ResponseWriter) : Prop where
  /-- Pieces keep their size. -/
  size_eq : w.chunkSize = size
  /-- What was taken is the beginning of the body that is not outstanding. -/
  taken : written calls = body.take (body.length - w.remaining)
  /-- What is outstanding is the rest of the body. -/
  left : w.unsent = body.drop (body.length - w.remaining)
  /-- Each piece was the next one. -/
  pieces {before after : List Call} {chunk : Bytes} {reply : Reply} :
    calls = before ++ .write chunk reply :: after → Piece body size before chunk
  /-- Each piece was asked for. -/
  asks : Asks calls

section Event

variable {σ : Type} [Exchange σ] {body : Bytes} {size : Nat} {calls : List Call}
  {w : ResponseWriter}

theorem Sends.split (h : Sends body size calls w) : written calls ++ w.unsent = body := by
  rw [h.taken, h.left, List.take_append_drop]

/-- How much is left of the body tells what was taken and what is left. -/
theorem taken_left {taken left : Bytes} (h : taken ++ left = body) :
    taken = body.take (body.length - left.length) ∧
      left = body.drop (body.length - left.length) := by
  subst h
  simp

theorem Piece.of_left {before : List Call} {left : Bytes} (pos : 0 < size)
    (h : written before ++ left = body) (hne : left ≠ []) :
    Piece body size before (left.take size) := by
  subst h
  refine ⟨?_, ?_, ?_, fun hlt ↦ ?_⟩
  · exact (List.prefix_append_right_inj _).mpr (List.take_prefix size left)
  · have hlength := List.length_pos_iff.mpr hne
    exact List.ne_nil_of_length_pos (by rw [List.length_take]; omega)
  · rw [List.length_take, List.length_append, Nat.add_sub_cancel_left]
  · rw [List.length_take] at hlt
    rw [List.take_of_length_le (by omega)]

/-- One event keeps what a writer is known to have sent. -/
theorem Sends.advance (h : Sends body size calls w) (event : IoEvent) (x : σ) :
    Sends body size (calls ++ (w.advance event x).2.2.2) (w.advance event x).2.1 := by
  obtain ⟨-, hasks, hwritten, -⟩ := advance_calls w event x
  have hsplit : written (calls ++ (w.advance event x).2.2.2) ++ (w.advance event x).2.1.unsent =
      body := by
    rw [written_append, List.append_assoc, hwritten, h.split]
  refine ⟨?_, (taken_left hsplit).1, (taken_left hsplit).2,
    fun {before after chunk reply} hcalls ↦ ?_, h.asks.append hasks⟩
  · rw [← h.size_eq]
    cases event <;> rfl
  · rcases append_eq_append_cons hcalls with ⟨made, rfl, hmade⟩ | ⟨rest, hcalls⟩
    · -- the piece is one of those of this event
      obtain ⟨left, hleft, hne, rfl⟩ : ∃ left, written made ++ left = w.unsent ∧ left ≠ [] ∧
          chunk = left.take size := by
        rw [← h.size_eq]
        cases event with
        | writable => exact (writes_writeAll w.chunkSize w.chunkSize_pos w.unsent x).next hmade
        | _ => simp [ResponseWriter.advance] at hmade
      refine .of_left (h.size_eq ▸ w.chunkSize_pos) ?_ hne
      rw [written_append, List.append_assoc, hleft, h.split]
    · exact h.pieces hcalls

theorem Sends.answer (h : Sends body size calls w) (x : σ) :
    Answer body calls (w.advance .writable x) := by
  have hwrites : Writes w.chunkSize w.unsent (w.advance .writable x).2.2.2
      (w.advance .writable x).1 (w.advance .writable x).2.1.unsent :=
    writes_writeAll w.chunkSize w.chunkSize_pos w.unsent x
  have hsplit := (h.advance .writable x).split
  refine ⟨?_, hwrites.pending_iff, hwrites.failed_iff, fun {before after c} hcalls hc ↦ ?_⟩
  · -- the exchange took all of the body exactly when nothing is left
    rw [hwrites.done_iff]
    exact ⟨fun hnil ↦ by rwa [hnil, List.append_nil] at hsplit, fun hall ↦ by
      rwa [hall, List.append_right_eq_self] at hsplit⟩
  · obtain ⟨rfl, hleft⟩ := hwrites.eq_nil_of_isLast hcalls hc
    refine ⟨rfl, List.length_pos_iff.mpr hleft, ?_⟩
    have hlength := congrArg List.length hsplit
    rw [hcalls, ← List.append_assoc, written_append, hc.written, List.append_nil,
      List.length_append] at hlength
    exact Nat.eq_sub_of_add_eq' hlength

theorem Sends.answers (h : Sends body size calls w) (x : σ) : Answers body calls w x :=
  ⟨fun _ ↦ rfl, rfl, fun _ ↦ rfl, h.answer x⟩

end Event

/-! ## Any events -/

/-- Where some events lead. -/
structure Course (σ : Type) where
  /-- The writer after them. -/
  writer : ResponseWriter
  /-- The exchange after them. -/
  exchange : σ
  /-- The calls made, in order. -/
  calls : List Call

/-- Take events one after the other, whatever the writer says to them. -/
def advanceAll {σ : Type} [Exchange σ] (w : ResponseWriter) (x : σ) : List IoEvent → Course σ
  | [] => ⟨w, x, []⟩
  | event :: events =>
    let told := w.advance event x
    let course := advanceAll told.2.1 told.2.2.1 events
    { course with calls := told.2.2.2 ++ course.calls }

theorem plays_advanceAll {σ : Type} [Exchange σ] (w : ResponseWriter) (x : σ)
    (events : List IoEvent) :
    Plays x (w.advanceAll x events).calls (w.advanceAll x events).exchange := by
  induction events generalizing w x with
  | nil => exact .nil x
  | cons event events ih =>
    have hone : Plays x (w.advance event x).2.2.2 (w.advance event x).2.2.1 := by
      cases event with
      | writable => exact plays_writeAll w.chunkSize w.chunkSize_pos w.unsent x
      | _ => exact .nil x
    exact hone.append (ih _ _)

theorem Sends.advanceAll {σ : Type} [Exchange σ] {body : Bytes} {size : Nat} {calls : List Call}
    {w : ResponseWriter} (h : Sends body size calls w) (x : σ) (events : List IoEvent) :
    Sends body size (calls ++ (w.advanceAll x events).calls) (w.advanceAll x events).writer := by
  induction events generalizing calls w x with
  | nil =>
    rw [ResponseWriter.advanceAll, List.append_nil]
    exact h
  | cons event events ih =>
    rw [ResponseWriter.advanceAll, ← List.append_assoc]
    exact ih (h.advance event x) _

theorem sends_new (body : Bytes) (chunkSize : Nat) :
    Sends body (max chunkSize 1) [] (new body chunkSize) where
  size_eq := rfl
  taken := by simp [written, new, remaining]
  left := by simp [new, remaining]
  pieces h := by simp at h
  asks := asks_of_kind (by simp)

/-- **A writer sends exactly its body.** After any events, on any exchange, what the exchange took
is the beginning of the body that is not outstanding, in pieces of the size that was given (zero
counts as one), each of them asked for; and the next event is answered as it should be. -/
theorem advanceAll_sends {σ : Type} [Exchange σ] (body : Bytes) (chunkSize : Nat) (x : σ)
    (events : List IoEvent) :
    let course := (new body chunkSize).advanceAll x events
    Plays x course.calls course.exchange ∧
      Sends body (max chunkSize 1) course.calls course.writer ∧
      Answers body course.calls course.writer course.exchange := by
  intro course
  have hsends : Sends body (max chunkSize 1) course.calls course.writer :=
    (sends_new body chunkSize).advanceAll x events
  exact ⟨plays_advanceAll _ x events, hsends, hsends.answers course.exchange⟩

end ResponseWriter

end Turnstile
