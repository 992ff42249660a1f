import Mathlib.Algebra.Order.Floor.Div
import Turnstile.Exchange.InMemory
import Turnstile.Proofs.Body.Writing

/-!
# A response in rounds

The exchange in memory takes so many writes and then has to become writable again, and the writer
hands it a body in pieces. One counts writes and the other counts bytes; together they go in
rounds, each of which makes the exchange ready and tells the writer. What a round does depends on
how many writes it takes (`Takes`): with each write there is one fewer, so the counter does not
wrap, and so many pieces are gone after it. So what was sent after any number of rounds is known
without looking at one of them: it is the beginning of the body, in full pieces, up to as many as
all the rounds take.

It makes no difference whether somebody waits for the exchange to become writable, or what was
recorded before.
-/

namespace Turnstile

/-- How many of some calls are writes. -/
def writesIn (calls : List Call) : Nat := calls.countP (·.kind = .write)

@[simp] theorem writesIn_isReady (answer : Readiness) (calls : List Call) :
    writesIn (.isReady answer :: calls) = writesIn calls := List.countP_cons_of_neg nofun

@[simp] theorem writesIn_write (chunk : Bytes) (reply : Reply) (calls : List Call) :
    writesIn (.write chunk reply :: calls) = writesIn calls + 1 := List.countP_cons_of_pos rfl

/-! ## Pieces -/

/-- The sizes of the pieces in which so many bytes are written: all alike, and what is over. -/
def pieceSizes (size length : Nat) : List Nat :=
  List.replicate (length / size) size ++ if length % size = 0 then [] else [length % size]

section Pieces

variable {size length : Nat}

@[simp] theorem pieceSizes_zero (size : Nat) : pieceSizes size 0 = [] := by simp [pieceSizes]

theorem pieceSizes_of_le (pos : 0 < length) (h : length ≤ size) :
    pieceSizes size length = [length] := by
  rcases h.lt_or_eq with hlt | rfl
  · rw [pieceSizes, Nat.div_eq_of_lt hlt, Nat.mod_eq_of_lt hlt, if_neg pos.ne']
    rfl
  · simp [pieceSizes, Nat.div_self pos]

theorem pieceSizes_add (pos : 0 < size) (count length : Nat) :
    pieceSizes size (count * size + length) =
      List.replicate count size ++ pieceSizes size length := by
  rw [pieceSizes, Nat.add_comm (count * size), Nat.add_mul_div_right _ _ pos,
    Nat.add_mul_mod_self_right, Nat.add_comm (length / size), List.replicate_add, List.append_assoc,
    pieceSizes]

theorem pieceSizes_cons (pos : 0 < size) (hlength : 0 < length) :
    pieceSizes size length = min size length :: pieceSizes size (length - size) := by
  rcases Nat.le_total length size with h | h
  · rw [pieceSizes_of_le hlength h, Nat.min_eq_right h, Nat.sub_eq_zero_of_le h, pieceSizes_zero]
  · obtain ⟨more, rfl⟩ := Nat.exists_eq_add_of_le h
    have hadd := pieceSizes_add pos 1 more
    rw [Nat.one_mul] at hadd
    rw [hadd, Nat.min_eq_left h, Nat.add_sub_cancel_left]
    rfl

theorem pieceSizes_append (pos : 0 < size) (count length more : Nat) :
    pieceSizes size (min length (count * size)) ++
        pieceSizes size (min (length - count * size) more) =
      pieceSizes size (min length (count * size + more)) := by
  rcases Nat.le_total length (count * size) with h | h
  · rw [Nat.min_eq_left h, Nat.sub_eq_zero_of_le h, Nat.zero_min, pieceSizes_zero, List.append_nil,
      Nat.min_eq_left (h.trans (Nat.le_add_right _ _))]
  · obtain ⟨rest, rfl⟩ := Nat.exists_eq_add_of_le h
    have hfull := pieceSizes_add pos count 0
    rw [Nat.add_zero, pieceSizes_zero, List.append_nil] at hfull
    rw [Nat.min_eq_right h, Nat.add_sub_cancel_left, Nat.add_min_add_left, pieceSizes_add pos,
      hfull]

end Pieces

/-! ## One call of the writer -/

namespace ResponseWriter

variable {σ : Type} [Exchange σ] {size : Nat} {pos : 0 < size} {unsent : Bytes} {x x' x'' : σ}

theorem writeAll_nil (x : σ) : writeAll size pos [] x = ⟨.done, [], x, []⟩ := by rw [writeAll]

theorem writeAll_busy (left : unsent ≠ []) (busy : Exchange.isReady x = (.busy, x')) :
    writeAll size pos unsent x = ⟨.pending, unsent, x', [.isReady .busy]⟩ := by
  obtain ⟨first, more, rfl⟩ := List.exists_cons_of_ne_nil left
  rw [writeAll, busy]

theorem writeAll_took (left : unsent ≠ []) (ready : Exchange.isReady x = (.ready, x'))
    (took : Exchange.write x' (unsent.take size) = (.ok, x'')) :
    writeAll size pos unsent x =
      let rest := writeAll size pos (unsent.drop size) x''
      { rest with
        calls := .isReady .ready :: .write (unsent.take size) .ok :: rest.calls } := by
  obtain ⟨first, more, rfl⟩ := List.exists_cons_of_ne_nil left
  rw [writeAll, ready]
  dsimp only
  rw [took]
  rfl

end ResponseWriter

namespace InMemory

open ResponseWriter (Plays Progress Written writeAll)

variable {x : InMemory} {budget size : Nat} {unsent : Bytes}

/-- The exchange takes so many writes if they are counted, and all of them if they are not. -/
structure Takes (x : InMemory) (budget : Nat) : Prop where
  /-- No write fails. -/
  works : x.writeFailure = none
  /-- The counter says how many writes are taken. -/
  counted : x.writesPerReady ≠ none → x.budget.toNat = budget
  /-- If they are not counted, the counter stays above zero. -/
  uncounted : x.writesPerReady = none → 0 < x.budget.toNat

theorem Takes.ready (h : x.Takes (budget + 1)) : Exchange.isReady x = (.ready, x) := by
  have hpos : 0 < x.budget.toNat := by
    by_cases hnone : x.writesPerReady = none
    · exact h.uncounted hnone
    · rw [h.counted hnone]
      exact budget.succ_pos
  have hready : x.ready = true := decide_eq_true (UInt64.lt_iff_toNat_lt.mpr hpos)
  change (if x.ready then Readiness.ready else .busy, x) = _
  rw [hready]
  rfl

theorem Takes.busy (h : x.Takes 0) (counted : x.writesPerReady ≠ none) :
    Exchange.isReady x = (.busy, x) := by
  have hready : x.ready = false := by
    refine decide_eq_false fun hlt ↦ ?_
    have hpos := UInt64.lt_iff_toNat_lt.mp hlt
    rw [h.counted counted] at hpos
    exact Nat.lt_irrefl 0 hpos
  change (if x.ready then Readiness.ready else .busy, x) = _
  rw [hready]
  rfl

/-- What becomes of the exchange when it takes a piece. -/
structure Took (x : InMemory) (chunk : Bytes) (x' : InMemory) : Prop where
  /-- The piece is recorded behind the others, -/
  body : x'.recorded.body.toList = x.recorded.body.toList ++ chunk
  /-- with its size. -/
  writes : x'.recorded.writes.toList = x.recorded.writes.toList ++ [chunk.length]
  /-- The next write does not fail either. -/
  works : x'.writeFailure = none
  /-- Writes are counted as before, -/
  perReady : x'.writesPerReady = x.writesPerReady
  /-- and this one is, if they are. -/
  budget : x'.budget = if x.writesPerReady = none then x.budget else x.budget - 1

theorem took_takeWrite (works : x.writeFailure = none) (chunk : Bytes) :
    ∃ x', x.takeWrite chunk = (.ok, x') ∧ x.Took chunk x' := by
  unfold takeWrite
  split
  next failure => rw [works] at failure; cases failure
  · dsimp only
    split
    next huncounted =>
      exact ⟨_, rfl, Journal.toList_append _ _, Journal.toList_push _ _, works, rfl,
        (if_pos huncounted).symm⟩
    next hcounted =>
      exact ⟨_, rfl, Journal.toList_append _ _, Journal.toList_push _ _, works, rfl,
        (if_neg (by simp [hcounted])).symm⟩

/-- An exchange that takes some writes takes one fewer after the first: the counter does not
wrap. -/
theorem Takes.write (h : x.Takes (budget + 1)) (chunk : Bytes) :
    ∃ x', Exchange.write x chunk = (.ok, x') ∧ x.Took chunk x' ∧ x'.Takes budget := by
  obtain ⟨x', hwrite, took⟩ := took_takeWrite h.works chunk
  refine ⟨x', hwrite, took, took.works, fun hcounted ↦ ?_, fun huncounted ↦ ?_⟩
  · rw [took.perReady] at hcounted
    have hbudget := h.counted hcounted
    have hone : (1 : UInt64) ≤ x.budget := by
      rw [UInt64.le_iff_toNat_le, hbudget]
      exact Nat.succ_le_succ (Nat.zero_le _)
    rw [took.budget, if_neg hcounted, UInt64.toNat_sub_of_le _ _ hone, hbudget]
    rfl
  · rw [took.perReady] at huncounted
    rw [took.budget, if_pos huncounted]
    exact h.uncounted huncounted

/-! ## One round -/

/-- What comes of writing in pieces of `size` bytes to an exchange that takes `budget` writes. -/
structure Round (size budget : Nat) (unsent : Bytes) (x : InMemory) (written : Written InMemory) :
    Prop where
  /-- The writer is done if there are pieces for so many writes and no more. -/
  progress : written.progress = if unsent.length ≤ budget * size then .done else .pending
  /-- So many pieces are gone, -/
  left : written.unsent = unsent.drop (budget * size)
  /-- and recorded behind what was recorded before, -/
  body : written.exchange.recorded.body.toList =
    x.recorded.body.toList ++ unsent.take (budget * size)
  /-- with their sizes. -/
  writes : written.exchange.recorded.writes.toList =
    x.recorded.writes.toList ++ pieceSizes size (min unsent.length (budget * size))
  /-- No write fails in the next round either. -/
  works : written.exchange.writeFailure = none
  /-- Writes are counted as before. -/
  perReady : written.exchange.writesPerReady = x.writesPerReady
  /-- After every call the counter says how many writes are left. -/
  counter : x.writesPerReady ≠ none → ∀ before after, written.calls = before ++ after →
    ∃ x', Plays x before x' ∧ x'.budget.toNat + writesIn before = budget

theorem round_nil (h : x.Takes budget) : Round size budget [] x ⟨.done, [], x, []⟩ where
  progress := by simp
  left := by simp
  body := by simp
  writes := by simp
  works := h.works
  perReady := rfl
  counter counted before after hcalls := by
    obtain ⟨rfl, -⟩ := List.append_eq_nil_iff.mp hcalls.symm
    exact ⟨x, .nil x, h.counted counted⟩

theorem round_busy (h : x.Takes 0) (counted : x.writesPerReady ≠ none) (hne : unsent ≠ []) :
    Round size 0 unsent x ⟨.pending, unsent, x, [.isReady .busy]⟩ where
  progress := by simp [hne]
  left := by simp
  body := by simp
  writes := by simp
  works := h.works
  perReady := rfl
  counter _ before after hcalls :=
    match before with
    | [] => ⟨x, .nil x, h.counted counted⟩
    | [_] => by
      cases hcalls
      exact ⟨x, .isReady (h.busy counted) (.nil x), h.counted counted⟩
    | _ :: _ :: _ => by simp at hcalls

theorem Round.cons {x' : InMemory} {written : Written InMemory} (pos : 0 < size)
    (h : x.Takes (budget + 1)) (hne : unsent ≠ [])
    (hwrite : Exchange.write x (unsent.take size) = (.ok, x')) (took : x.Took (unsent.take size) x')
    (rest : Round size budget (unsent.drop size) x' written) :
    Round size (budget + 1) unsent x
      { written with
        calls := .isReady .ready :: .write (unsent.take size) .ok :: written.calls } := by
  have hlength := List.length_pos_iff.mpr hne
  refine ⟨?_, ?_, ?_, ?_, rest.works, rest.perReady.trans took.perReady, ?_⟩
  · rw [rest.progress, List.length_drop, Nat.succ_mul]
    exact if_congr (by omega) rfl rfl
  · rw [rest.left, List.drop_drop, Nat.succ_mul, Nat.add_comm size]
  · rw [rest.body, took.body, List.append_assoc, Nat.succ_mul, Nat.add_comm _ size, List.take_add]
  · have hpieces : pieceSizes size (min unsent.length (budget * size + size)) =
        min size unsent.length :: pieceSizes size (min (unsent.length - size) (budget * size)) := by
      have hfirst :
          min size (min unsent.length (budget * size + size)) = min size unsent.length := by
        omega
      have hrest : min unsent.length (budget * size + size) - size =
          min (unsent.length - size) (budget * size) := by omega
      rw [pieceSizes_cons pos (by omega), hfirst, hrest]
    rw [rest.writes, took.writes, List.append_assoc, Nat.succ_mul, List.length_take,
      List.length_drop, hpieces, List.singleton_append]
  · intro counted before after hcalls
    match before with
    | [] => exact ⟨x, .nil x, h.counted counted⟩
    | [_] =>
      cases hcalls
      exact ⟨x, .isReady h.ready (.nil x), h.counted counted⟩
    | _ :: _ :: before =>
      simp only [List.cons_append, List.cons.injEq] at hcalls
      obtain ⟨rfl, rfl, hcalls⟩ := hcalls
      obtain ⟨x'', hplays, hcounter⟩ :=
        rest.counter (by rwa [took.perReady]) before after hcalls
      refine ⟨x'', .isReady h.ready (.write hwrite hplays), ?_⟩
      rw [writesIn_isReady, writesIn_write]
      omega

theorem round_writeAll (pos : 0 < size) (h : x.Takes budget)
    (enough : x.writesPerReady = none → unsent.length ≤ budget * size) :
    Round size budget unsent x (writeAll size pos unsent x) := by
  induction budget generalizing unsent x with
  | zero =>
    by_cases hne : unsent = []
    · subst hne
      rw [ResponseWriter.writeAll_nil]
      exact round_nil h
    · have counted : x.writesPerReady ≠ none := fun hnone ↦ hne <| by simpa using enough hnone
      rw [ResponseWriter.writeAll_busy hne (h.busy counted)]
      exact round_busy h counted hne
  | succ budget ih =>
    by_cases hne : unsent = []
    · subst hne
      rw [ResponseWriter.writeAll_nil]
      exact round_nil h
    · obtain ⟨x', hwrite, took, htakes⟩ := h.write (unsent.take size)
      rw [ResponseWriter.writeAll_took hne h.ready hwrite]
      refine .cons pos h hne hwrite took (ih htakes fun huncounted ↦ ?_)
      rw [took.perReady] at huncounted
      have hlength := enough huncounted
      rw [Nat.succ_mul] at hlength
      rw [List.length_drop]
      omega

/-! ## The next round -/

theorem takes_prime (works : x.writeFailure = none)
    (hbudget : ∀ count, x.writesPerReady = some count → count = budget ∧ count < 2 ^ 64) :
    x.prime.Takes budget where
  works := works
  counted hcounted := by
    obtain ⟨count, hcount⟩ := Option.ne_none_iff_exists'.mp hcounted
    obtain ⟨rfl, hlt⟩ := hbudget count hcount
    change (x.freshBudget).toNat = count
    rw [freshBudget, show x.writesPerReady = some count from hcount]
    exact UInt64.toNat_ofNat_of_lt' hlt
  uncounted huncounted := by
    change 0 < (x.freshBudget).toNat
    rw [freshBudget, show x.writesPerReady = none from huncounted]
    decide

end InMemory

/-! ## Rounds -/

/-- A response body on its way over an exchange in memory. -/
structure Sending where
  /-- The writer. -/
  writer : ResponseWriter
  /-- The exchange. -/
  exchange : InMemory
  /-- What the last round meant for the body, if there was one. -/
  progress? : Option ResponseWriter.Progress

namespace Sending

open ResponseWriter (Plays Progress)

/-- Nothing has been written yet. -/
def start (body : Bytes) (chunkSize : Nat) (x : InMemory) : Sending :=
  ⟨.new body chunkSize, x, none⟩

/-- What the writer does when the exchange is ready for a fresh round of writes. -/
def next (s : Sending) : Progress × ResponseWriter × InMemory × List Call :=
  s.writer.advance .writable s.exchange.prime

/-- One more round. -/
def round (s : Sending) : Sending := ⟨s.next.2.1, s.next.2.2.1, some s.next.1⟩

/-- Some rounds. -/
def rounds (s : Sending) : Nat → Sending
  | 0 => s
  | k + 1 => (s.rounds k).round

variable {body : Bytes} {size budget k : Nat} {x : InMemory} {s : Sending}

/-- What is so after `k` rounds of at most `budget` pieces each. -/
structure After (body : Bytes) (size budget : Nat) (x : InMemory) (k : Nat) (s : Sending) :
    Prop where
  /-- Pieces keep their size. -/
  chunkSize : s.writer.chunkSize = size
  /-- The pieces of these rounds are gone, -/
  left : s.writer.unsent = body.drop (k * budget * size)
  /-- and recorded, -/
  recorded : s.exchange.recorded.body.toList =
    x.recorded.body.toList ++ body.take (k * budget * size)
  /-- with their sizes. -/
  writes : s.exchange.recorded.writes.toList =
    x.recorded.writes.toList ++ pieceSizes size (min body.length (k * budget * size))
  /-- No write fails. -/
  works : s.exchange.writeFailure = none
  /-- Writes are counted as in the beginning. -/
  perReady : s.exchange.writesPerReady = x.writesPerReady

theorem after_start (body : Bytes) (chunkSize budget : Nat) (works : x.writeFailure = none) :
    After body (max chunkSize 1) budget x 0 (start body chunkSize x) where
  chunkSize := rfl
  left := by simp [start, ResponseWriter.new]
  recorded := by simp [start]
  writes := by simp [start]
  works := works
  perReady := rfl

theorem After.next (h : After body size budget x k s)
    (hbudget : ∀ count, x.writesPerReady = some count → count = budget ∧ count < 2 ^ 64)
    (enough : x.writesPerReady = none → body.length ≤ budget * size) :
    InMemory.Round size budget (body.drop (k * budget * size)) s.exchange.prime
      ⟨s.next.1, s.next.2.1.unsent, s.next.2.2.1, s.next.2.2.2⟩ := by
  rw [← h.perReady] at hbudget enough
  rw [← h.left, ← h.chunkSize]
  refine InMemory.round_writeAll s.writer.chunkSize_pos
    (InMemory.takes_prime h.works hbudget) fun huncounted ↦ ?_
  have hlength := enough huncounted
  rw [h.left, List.length_drop, h.chunkSize]
  omega

theorem After.round (h : After body size budget x k s)
    (hbudget : ∀ count, x.writesPerReady = some count → count = budget ∧ count < 2 ^ 64)
    (enough : x.writesPerReady = none → body.length ≤ budget * size) :
    After body size budget x (k + 1) s.round := by
  have hnext := h.next hbudget enough
  have hmul : (k + 1) * budget * size = k * budget * size + budget * size := by
    rw [Nat.succ_mul, Nat.add_mul]
  refine ⟨h.chunkSize, ?_, ?_, ?_, hnext.works, hnext.perReady.trans h.perReady⟩
  · rw [hmul, ← List.drop_drop]
    exact hnext.left
  · rw [hmul, List.take_add, ← List.append_assoc, ← h.recorded]
    exact hnext.body
  · have hpieces := pieceSizes_append (h.chunkSize ▸ s.writer.chunkSize_pos) (k * budget)
      body.length (budget * size)
    rw [hmul, ← hpieces, ← List.append_assoc, ← h.writes, ← List.length_drop]
    exact hnext.writes

theorem after_rounds (body : Bytes) (chunkSize : Nat) (works : x.writeFailure = none)
    (hbudget : ∀ count, x.writesPerReady = some count → count = budget ∧ count < 2 ^ 64)
    (enough : x.writesPerReady = none → body.length ≤ budget * max chunkSize 1) (k : Nat) :
    After body (max chunkSize 1) budget x k ((start body chunkSize x).rounds k) := by
  induction k with
  | zero => exact after_start body chunkSize budget works
  | succ k ih => exact ih.round hbudget enough

/-! ## What was sent -/

/-- The first `total` bytes of the body have been sent in pieces of `size` bytes, or all of it if it
has no more. -/
structure Sent (body : Bytes) (size total : Nat) (x : InMemory) (s : Sending) : Prop where
  /-- The rest remains. -/
  remaining : s.writer.remaining = body.length - total
  /-- The writer is done when nothing remains, and waits otherwise. -/
  progress : s.progress? = some (if body.length ≤ total then .done else .pending)
  /-- These bytes are recorded behind what was recorded before, -/
  recorded : s.exchange.recorded.body.toList = x.recorded.body.toList ++ body.take total
  /-- with the sizes of their pieces. -/
  writes : s.exchange.recorded.writes.toList =
    x.recorded.writes.toList ++ pieceSizes size (min body.length total)

theorem Sent.of_le {total : Nat} (h : Sent body size total x s) (hle : body.length ≤ total) :
    Sent body size body.length x s where
  remaining := by rw [h.remaining, Nat.sub_eq_zero_of_le hle, Nat.sub_self]
  progress := by rw [h.progress, if_pos hle, if_pos (Nat.le_refl _)]
  recorded := by rw [h.recorded, List.take_of_length_le hle, List.take_length]
  writes := by rw [h.writes, Nat.min_eq_left hle, Nat.min_self]

theorem After.sent (h : After body size budget x k s)
    (hbudget : ∀ count, x.writesPerReady = some count → count = budget ∧ count < 2 ^ 64)
    (enough : x.writesPerReady = none → body.length ≤ budget * size) :
    Sent body size ((k + 1) * budget * size) x s.round := by
  have hround := h.round hbudget enough
  refine ⟨?_, ?_, hround.recorded, hround.writes⟩
  · rw [ResponseWriter.remaining, hround.left, List.length_drop]
  · refine congrArg some ((h.next hbudget enough).progress.trans ?_)
    rw [List.length_drop, Nat.succ_mul, Nat.add_mul]
    exact if_congr (by omega) rfl rfl

/-- How a body is sent over an exchange that takes `budget` writes in a round. -/
structure Paced (body : Bytes) (size budget : Nat) (x : InMemory) (s : Sending) : Prop where
  /-- So many pieces are sent in each round, as long as there are any. -/
  sent : ∀ k, 1 ≤ k → Sent body size (k * budget * size) x (s.rounds k)
  /-- All of the body is sent after as many rounds as it takes to write its pieces, and a body that
  is empty after one. -/
  done : ∀ k, 1 ≤ k →
    ((s.rounds k).progress? = some .done ↔ max 1 (body.length ⌈/⌉ size ⌈/⌉ budget) ≤ k)
  /-- After every call of every round the counter says how many writes are left in the round. -/
  counter : ∀ k before after, (s.rounds k).next.2.2.2 = before ++ after →
    ∃ x', Plays (s.rounds k).exchange.prime before x' ∧ x'.budget.toNat + writesIn before = budget

/-- It takes as many rounds as the pieces of the body need. -/
theorem ceilDiv_ceilDiv_le_iff {length : Nat} (size_pos : 0 < size) (budget_pos : 0 < budget) :
    length ⌈/⌉ size ⌈/⌉ budget ≤ k ↔ length ≤ k * budget * size := by
  rw [ceilDiv_le_iff_le_mul budget_pos, ceilDiv_le_iff_le_mul size_pos, Nat.mul_comm size,
    Nat.mul_comm budget]

theorem paced_limitWrites (body : Bytes) (chunkSize : Nat) (works : x.writeFailure = none)
    {count : Nat} (hlt : count < 2 ^ 64) :
    Paced body (max chunkSize 1) (max count 1) x
      (start body chunkSize (x.limitWrites count)) := by
  have hbudget (n : Nat) (hn : (x.limitWrites count).writesPerReady = some n) :
      n = max count 1 ∧ n < 2 ^ 64 := by
    cases hn
    exact ⟨rfl, by omega⟩
  have hafter := after_rounds body chunkSize (x := x.limitWrites count) works hbudget nofun
  have hsent (k : Nat) (hk : 1 ≤ k) :
      Sent body (max chunkSize 1) (k * max count 1 * max chunkSize 1) x
        ((start body chunkSize (x.limitWrites count)).rounds k) := by
    obtain ⟨k, rfl⟩ := Nat.exists_eq_succ_of_ne_zero (Nat.pos_iff_ne_zero.mp hk)
    have hround := (hafter k).sent hbudget nofun
    exact ⟨hround.remaining, hround.progress, hround.recorded, hround.writes⟩
  refine ⟨hsent, fun k hk ↦ ?_, fun k before after hcalls ↦ ?_⟩
  · rw [(hsent k hk).progress, Nat.max_le, ceilDiv_ceilDiv_le_iff (by omega) (by omega),
      and_iff_right hk]
    simp
  · refine ((hafter k).next hbudget nofun).counter (fun hnone ↦ ?_) before after hcalls
    exact Option.some_ne_none _ ((hafter k).perReady.symm.trans hnone)

theorem sent_of_uncounted (body : Bytes) (chunkSize : Nat) (works : x.writeFailure = none)
    (uncounted : x.writesPerReady = none) (hk : 1 ≤ k) :
    Sent body (max chunkSize 1) body.length x ((start body chunkSize x).rounds k) := by
  have hbudget (n : Nat) (hn : x.writesPerReady = some n) : n = body.length ∧ n < 2 ^ 64 := by
    rw [uncounted] at hn
    cases hn
  have henough : body.length ≤ body.length * max chunkSize 1 :=
    Nat.le_mul_of_pos_right _ (by omega)
  obtain ⟨k, rfl⟩ := Nat.exists_eq_succ_of_ne_zero (Nat.pos_iff_ne_zero.mp hk)
  have hafter := after_rounds body chunkSize works hbudget (fun _ ↦ henough) k
  refine (hafter.sent hbudget fun _ ↦ henough).of_le (henough.trans ?_)
  exact Nat.mul_le_mul_right _ (Nat.le_mul_of_pos_left _ k.succ_pos)

/-- **A response in rounds.** Each round makes the exchange ready and tells the writer. If `count`
writes are taken in a round (zero counts as one), then after any number of rounds as many pieces of
the body have been sent as all these rounds take, in order and in full, but for the last of the
body; and the counter goes down with each write and never below zero. If writes are not counted,
one round sends all of the body. -/
theorem start_paced (body : Bytes) (chunkSize : Nat) (works : x.writeFailure = none) :
    (∀ count < 2 ^ 64, Paced body (max chunkSize 1) (max count 1) x
      (start body chunkSize (x.limitWrites count))) ∧
    (x.writesPerReady = none → ∀ k, 1 ≤ k →
      Sent body (max chunkSize 1) body.length x ((start body chunkSize x).rounds k)) :=
  ⟨fun _ hlt ↦ paced_limitWrites body chunkSize works hlt,
    fun uncounted _ hk ↦ sent_of_uncounted body chunkSize works uncounted hk⟩

/-- Four bytes in pieces of two, one in a round: the counter reaches zero with the write that ends
the body. -/
theorem start_paced_exact :
    (InMemory.new default).writeFailure = none ∧ (1 : Nat) < 2 ^ 64 ∧
      Sent [1, 2, 3, 4] 2 4 (.new default)
        ((start [1, 2, 3, 4] 2 ((InMemory.new default).limitWrites 1)).rounds 2) ∧
      ((start [1, 2, 3, 4] 2 ((InMemory.new default).limitWrites 1)).rounds 2).progress? =
        some .done := by
  have hworks : (InMemory.new default).writeFailure = none := rfl
  have hpaced := (start_paced [1, 2, 3, 4] 2 hworks).1 1 (by decide)
  have hsent := hpaced.sent 2 (by decide)
  exact ⟨hworks, by decide, hsent, hsent.progress⟩

end Sending

end Turnstile
