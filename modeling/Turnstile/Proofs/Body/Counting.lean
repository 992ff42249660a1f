import Turnstile.Proofs.Body.Reading
import Turnstile.Proofs.Body.Writing
import Turnstile.Proofs.Body.Word

/-!
# Counting in words

A writer that notes how many bytes of its body are written, and a reader that compares sizes, can
count in words of a machine. Both do exactly what `ResponseWriter` and `BodyReader` do, which count
without a bound: no sum and no difference leaves the words, and no stretch leaves the body.

## Why the sums are words

This does not follow from the bounds of the numbers. A piece may be as long as a word can say, and
added to any number of written bytes but zero such a length is not a word. The sum is one because of
what the loop keeps: at the beginning of the body there is nothing to add to, and behind the first
piece there is more to write only if a whole piece was taken, so that the size of a piece is less
than the size of the body (`WordWriter.Steady.sum_lt` in the loop, `ResponseWriter.Sends.size_le`
for the calls that were made). The reader keeps a block and is brought a block, and the sizes of two
blocks have a sum, however great the limit is.
-/

namespace Turnstile

/-! ## Writing, piece by piece -/

namespace ResponseWriter

section

variable {σ : Type} [Exchange σ] {w : ResponseWriter} {x x' x'' : σ} {reply : Reply}

theorem advance_done (h : w.unsent = []) : w.advance .writable x = (.done, w, x, []) := by
  obtain ⟨unsent, chunkSize, pos⟩ := w
  cases h
  rw [advance, writeAll]

theorem advance_fault {f : Fault} (h : w.unsent ≠ [])
    (hready : Exchange.isReady x = (.fault f, x')) :
    w.advance .writable x = (.failed (.ofFault f), w, x', [.isReady (.fault f)]) := by
  obtain ⟨unsent, chunkSize, pos⟩ := w
  obtain ⟨first, more, rfl⟩ := List.exists_cons_of_ne_nil h
  rw [advance, writeAll, hready]

theorem advance_busy (h : w.unsent ≠ []) (hready : Exchange.isReady x = (.busy, x')) :
    w.advance .writable x = (.pending, w, x', [.isReady .busy]) := by
  obtain ⟨unsent, chunkSize, pos⟩ := w
  obtain ⟨first, more, rfl⟩ := List.exists_cons_of_ne_nil h
  rw [advance, writeAll, hready]

theorem advance_refused {e : IoError} (h : w.unsent ≠ [])
    (hready : Exchange.isReady x = (.ready, x'))
    (hwrite : Exchange.write x' (w.unsent.take w.chunkSize) = (reply, x''))
    (herror : reply.error? = some e) :
    w.advance .writable x =
      (.failed e, w, x'', [.isReady .ready, .write (w.unsent.take w.chunkSize) reply]) := by
  obtain ⟨unsent, chunkSize, pos⟩ := w
  obtain ⟨first, more, rfl⟩ := List.exists_cons_of_ne_nil h
  rw [advance, writeAll, hready]
  dsimp only at hwrite ⊢
  rw [hwrite]
  dsimp only
  rw [herror]

theorem advance_took (h : w.unsent ≠ []) (hready : Exchange.isReady x = (.ready, x'))
    (hwrite : Exchange.write x' (w.unsent.take w.chunkSize) = (reply, x''))
    (hnone : reply.error? = none) :
    let told := advance { w with unsent := w.unsent.drop w.chunkSize } .writable x''
    w.advance .writable x = (told.1, told.2.1, told.2.2.1,
      .isReady .ready :: .write (w.unsent.take w.chunkSize) reply :: told.2.2.2) := by
  obtain ⟨unsent, chunkSize, pos⟩ := w
  obtain ⟨first, more, rfl⟩ := List.exists_cons_of_ne_nil h
  rw [advance, advance, writeAll, hready]
  dsimp only at hwrite ⊢
  rw [hwrite]
  dsimp only
  rw [hnone]

end

section

variable {body : Bytes} {size : Nat} {calls before after : List Call} {w : ResponseWriter}
  {chunk : Bytes} {reply : Reply}

theorem Piece.eq_take (h : Piece body size before chunk) :
    (body.drop (written before).length).take size = chunk := by
  obtain ⟨rest, hrest⟩ := h.next
  have hlength := h.length_eq
  rw [← hrest, List.append_assoc, List.length_append, List.length_append] at hlength
  rw [← hrest, List.append_assoc, List.drop_left]
  calc (chunk ++ rest).take size
    _ = (chunk ++ rest).take chunk.length :=
      List.take_eq_take_iff.mpr (by rw [List.length_append]; omega)
    _ = chunk := List.take_left

theorem exists_took (h : written calls ≠ []) :
    ∃ front taken rest, calls = front ++ .write taken .ok :: rest := by
  rw [written, ne_eq, List.flatMap_eq_nil_iff, not_forall₂] at h
  obtain ⟨c, hc, hne⟩ := h
  obtain ⟨front, rest, rfl⟩ := List.append_of_mem hc
  cases c with
  | write taken reply =>
    cases reply with
    | ok => exact ⟨front, taken, rest, rfl⟩
    | _ => exact absurd rfl hne
  | _ => exact absurd rfl hne

/-- A piece that is not the first one has a whole one in front of it. -/
theorem Sends.size_le (h : Sends body size calls w)
    (hcalls : calls = before ++ .write chunk reply :: after) (hne : written before ≠ []) :
    size ≤ (written before).length := by
  have hpiece := h.pieces hcalls
  obtain ⟨front, taken, rest, rfl⟩ := exists_took hne
  have htaken : Piece body size front taken :=
    h.pieces (by rw [hcalls, List.append_assoc, List.cons_append])
  have hlength := hpiece.next.length_le
  have hpos := List.length_pos_iff.mpr hpiece.nonempty
  have hwhole := htaken.length_eq
  have hsplit : written (front ++ .write taken .ok :: rest) =
      written front ++ (taken ++ written rest) := by
    rw [written_append]
    rfl
  rw [List.length_append] at hlength
  rw [hsplit, List.length_append, List.length_append] at hlength ⊢
  omega

end

end ResponseWriter

/-! ## A writer -/

/-- A writer that counts in words. -/
structure WordWriter where
  /-- The body. -/
  body : Block
  /-- How many of its bytes are written. -/
  written : UInt64
  /-- The largest piece written at once. -/
  chunkSize : UInt64
  /-- A piece has at least one byte. -/
  chunkSize_pos : 0 < chunkSize.toNat

namespace WordWriter

open ResponseWriter (Progress)

/-- A writer for `body` in pieces of `chunkSize` bytes, where zero counts as one. -/
def new (body : Block) (chunkSize : UInt64) : WordWriter :=
  ⟨body, 0, max chunkSize 1, by rw [UInt64.toNat_max]; exact Nat.le_max_right _ _⟩

/-- How many bytes have not been written yet. -/
def remaining (w : WordWriter) : Except Halt UInt64 := Word.sub w.body.size w.written

/-- The next piece, behind the place where it ends. -/
def next (w : WordWriter) : Except Halt (UInt64 × Bytes) := do
  let sum ← Word.add w.written w.chunkSize
  let stop := min sum w.body.size
  let chunk ← w.body.slice w.written stop
  return (stop, chunk)

theorem lt_of_next {w : WordWriter} {stop : UInt64} {chunk : Bytes}
    (hleft : w.written < w.body.size) (h : w.next = .ok (stop, chunk)) :
    w.written.toNat < stop.toNat := by
  rw [Block.lt_size] at hleft
  simp only [next, Halt.bind_eq_ok] at h
  obtain ⟨sum, hsum, chunk, -, hstop⟩ := h
  cases hstop
  have hpos := w.chunkSize_pos
  rw [UInt64.toNat_min, Word.toNat_of_add hsum, Block.toNat_size]
  omega

/-- Write pieces until nothing is left or the exchange does not take more. -/
def writeAll {σ : Type} [Exchange σ] (w : WordWriter) (exchange : σ) :
    Except Halt (Progress × WordWriter × σ × List Call) :=
  if _ : w.written < w.body.size then
    match Exchange.isReady exchange with
    | (.fault f, exchange) => .ok (.failed (.ofFault f), w, exchange, [.isReady (.fault f)])
    | (.busy, exchange) => .ok (.pending, w, exchange, [.isReady .busy])
    | (.ready, exchange) =>
      match _ : w.next with
      | .error halt => .error halt
      | .ok (stop, chunk) =>
        match Exchange.write exchange chunk with
        | (reply, exchange) =>
          match reply.error? with
          | some e => .ok (.failed e, w, exchange, [.isReady .ready, .write chunk reply])
          | none => do
            let told ← writeAll { w with written := stop } exchange
            return (told.1, told.2.1, told.2.2.1,
              .isReady .ready :: .write chunk reply :: told.2.2.2)
  else .ok (.done, w, exchange, [])
termination_by w.body.bytes.length - w.written.toNat
decreasing_by
  have hleft : w.written < w.body.size := ‹_›
  have hstop := lt_of_next hleft ‹_›
  rw [Block.lt_size] at hleft
  omega

/-- Take one event, writing to the exchange if it is writable. -/
def advance {σ : Type} [Exchange σ] (w : WordWriter) (event : IoEvent) (exchange : σ) :
    Except Halt (Progress × WordWriter × σ × List Call) :=
  match event with
  | .writable => w.writeAll exchange
  | .error e => .ok (.failed e, w, exchange, [])
  | .data _ | .allRead => .ok (.pending, w, exchange, [])

/-- The same writer when it counts without words. -/
def toWriter (w : WordWriter) : ResponseWriter :=
  ⟨w.body.bytes.drop w.written.toNat, w.chunkSize.toNat, w.chunkSize_pos⟩

theorem toWriter_unsent_ne_nil {w : WordWriter} (h : w.written < w.body.size) :
    w.toWriter.unsent ≠ [] := by
  rw [Block.lt_size] at h
  exact List.ne_nil_of_length_pos (by rw [toWriter, List.length_drop]; omega)

/-- What a writer told, when it counts without words. -/
def view {σ : Type} (told : Progress × WordWriter × σ × List Call) :
    Progress × ResponseWriter × σ × List Call :=
  (told.1, told.2.1.toWriter, told.2.2)

/-- A writer of `body` in pieces of `size` bytes is within the body, and it has a whole piece behind
it if it is neither at the beginning nor at the end. -/
structure Steady (body : Block) (size : UInt64) (w : WordWriter) : Prop where
  /-- It has this body -/
  body_eq : w.body = body
  /-- and this size. -/
  size_eq : w.chunkSize = size
  /-- No more is written than there is. -/
  written_le : w.written.toNat ≤ body.bytes.length
  /-- A whole piece is written if anything is, unless all is. -/
  size_le : w.written.toNat ≠ 0 → w.written.toNat < body.bytes.length →
    size.toNat ≤ w.written.toNat

theorem toWriter_new (body : Block) (chunkSize : UInt64) :
    (new body chunkSize).toWriter = ResponseWriter.new body.bytes chunkSize.toNat := by
  rw [toWriter, ResponseWriter.new]
  simp [new, UInt64.toNat_max]

section

variable {body : Block} {size : UInt64} {w : WordWriter}

theorem steady_new (body : Block) (chunkSize : UInt64) :
    Steady body (max chunkSize 1) (new body chunkSize) where
  body_eq := rfl
  size_eq := rfl
  written_le := Nat.zero_le _
  size_le h := absurd rfl h

/-- Where a piece follows, the sum is a word: at the beginning it is the size of a piece, and behind
a whole piece that size is less than the size of the body. -/
theorem Steady.sum_lt (h : Steady body size w) (hleft : w.written.toNat < body.bytes.length) :
    w.written.toNat + size.toNat < 2 ^ 64 := by
  by_cases hzero : w.written.toNat = 0
  · rw [hzero, Nat.zero_add]
    exact size.toNat_lt
  · have hsize := h.size_le hzero hleft
    have hbody := body.length_lt
    omega

theorem Steady.next (h : Steady body size w) (hleft : w.written < w.body.size) :
    ∃ stop, w.next = .ok (stop, w.toWriter.unsent.take w.toWriter.chunkSize) ∧
      stop.toNat = min (w.written.toNat + size.toNat) body.bytes.length := by
  rw [Block.lt_size, h.body_eq] at hleft
  obtain ⟨sum, hadd⟩ := Word.exists_add (h.sum_lt hleft)
  obtain ⟨rfl, rfl, hle, -⟩ := h
  have hstop : (min sum w.body.size).toNat =
      min (w.written.toNat + w.chunkSize.toNat) w.body.bytes.length := by
    rw [UInt64.toNat_min, Word.toNat_of_add hadd, Block.toNat_size]
  have hslice : w.body.slice w.written (min sum w.body.size) =
      .ok (w.toWriter.unsent.take w.chunkSize.toNat) := by
    rw [Block.slice_eq (by omega) (by omega), List.drop_take, hstop, toWriter]
    exact congrArg _ (List.take_eq_take_iff.mpr (by rw [List.length_drop]; omega))
  refine ⟨min sum w.body.size, ?_, hstop⟩
  rw [WordWriter.next, hadd]
  simp only [bind, Except.bind, hslice, pure, Except.pure]
  rfl

theorem Steady.took (h : Steady body size w) {stop : UInt64}
    (hstop : stop.toNat = min (w.written.toNat + size.toNat) body.bytes.length) :
    Steady body size { w with written := stop } where
  body_eq := h.body_eq
  size_eq := h.size_eq
  written_le := by
    dsimp only
    omega
  size_le _ hlt := by
    dsimp only at hlt ⊢
    omega

theorem toWriter_took (h : Steady body size w) {stop : UInt64}
    (hstop : stop.toNat = min (w.written.toNat + size.toNat) body.bytes.length) :
    toWriter { w with written := stop } =
      { w.toWriter with unsent := w.toWriter.unsent.drop w.toWriter.chunkSize } := by
  obtain ⟨rfl, rfl, -, -⟩ := h
  have hdrop : w.body.bytes.drop stop.toNat =
      w.body.bytes.drop (w.written.toNat + w.chunkSize.toNat) :=
    List.drop_eq_drop_iff.mpr (by omega)
  rw [toWriter, toWriter]
  simp only [hdrop, List.drop_drop]

/-- Words or not, the writer does the same. -/
theorem Steady.writeAll {σ : Type} [Exchange σ] (h : Steady body size w) (x : σ) :
    ∃ told, w.writeAll x = .ok told ∧ view told = w.toWriter.advance .writable x ∧
      Steady body size told.2.1 := by
  fun_induction w.writeAll x with
  | case1 w x hleft f x' hready =>
    exact ⟨_, rfl, (ResponseWriter.advance_fault (toWriter_unsent_ne_nil hleft) hready).symm, h⟩
  | case2 w x hleft x' hready =>
    exact ⟨_, rfl, (ResponseWriter.advance_busy (toWriter_unsent_ne_nil hleft) hready).symm, h⟩
  | case3 w x hleft x' hready halt hnext =>
    obtain ⟨stop, hfound, -⟩ := h.next hleft
    cases hnext.symm.trans hfound
  | case4 w x hleft x' hready stop chunk hnext reply x'' hwrite e herror =>
    obtain ⟨_, hfound, -⟩ := h.next hleft
    cases hnext.symm.trans hfound
    exact ⟨_, rfl, (ResponseWriter.advance_refused (toWriter_unsent_ne_nil hleft) hready hwrite
      herror).symm, h⟩
  | case5 w x hleft x' hready stop chunk hnext reply x'' hwrite hnone ih =>
    obtain ⟨_, hfound, hstop⟩ := h.next hleft
    cases hnext.symm.trans hfound
    obtain ⟨told, htold, hview, hsteady⟩ := ih (h.took hstop)
    rw [htold]
    refine ⟨_, rfl, ?_, hsteady⟩
    rw [ResponseWriter.advance_took (toWriter_unsent_ne_nil hleft) hready hwrite hnone,
      ← toWriter_took h hstop, ← hview]
    rfl
  | case6 w x hdone =>
    refine ⟨_, rfl, (ResponseWriter.advance_done ?_).symm, h⟩
    rw [Block.lt_size] at hdone
    exact List.drop_eq_nil_of_le (Nat.not_lt.mp hdone)

theorem Steady.advance {σ : Type} [Exchange σ] (h : Steady body size w) (event : IoEvent)
    (x : σ) :
    ∃ told, w.advance event x = .ok told ∧ view told = w.toWriter.advance event x ∧
      Steady body size told.2.1 := by
  cases event with
  | writable => exact h.writeAll x
  | _ => exact ⟨_, rfl, rfl, h⟩

end

/-- Where some events lead. -/
structure Course (σ : Type) where
  /-- The writer after them. -/
  writer : WordWriter
  /-- The exchange after them. -/
  exchange : σ
  /-- The calls made, in order. -/
  calls : List Call

/-- Where they lead when the writer counts without words. -/
def Course.view {σ : Type} (course : Course σ) : ResponseWriter.Course σ :=
  ⟨course.writer.toWriter, course.exchange, course.calls⟩

/-- Take events one after the other, whatever the writer says to them. -/
def advanceAll {σ : Type} [Exchange σ] (w : WordWriter) (x : σ) :
    List IoEvent → Except Halt (Course σ)
  | [] => .ok ⟨w, x, []⟩
  | event :: events => do
    let told ← w.advance event x
    let course ← advanceAll told.2.1 told.2.2.1 events
    return { course with calls := told.2.2.2 ++ course.calls }

theorem Steady.advanceAll {σ : Type} [Exchange σ] {body : Block} {size : UInt64} {w : WordWriter}
    (h : Steady body size w) (x : σ) (events : List IoEvent) :
    ∃ course, w.advanceAll x events = .ok course ∧
      course.view = w.toWriter.advanceAll x events ∧ Steady body size course.writer := by
  induction events generalizing w x with
  | nil => exact ⟨_, rfl, rfl, h⟩
  | cons event events ih =>
    obtain ⟨told, htold, hview, hnext⟩ := h.advance event x
    obtain ⟨course, hcourse, hlater, hsteady⟩ := ih hnext told.2.2.1
    refine ⟨{ course with calls := told.2.2.2 ++ course.calls }, ?_, ?_, hsteady⟩
    · exact Halt.bind_eq_ok.mpr ⟨told, htold, Halt.bind_eq_ok.mpr ⟨course, hcourse, rfl⟩⟩
    · rw [ResponseWriter.advanceAll, ← hview]
      dsimp only [view]
      rw [← hlater]
      rfl

/-- What is so of a writer that offers a piece after some calls. -/
structure Offers (body : Block) (size : UInt64) (before : List Call) (chunk : Bytes)
    (w : WordWriter) (stop : UInt64) : Prop where
  /-- It has this body -/
  body_eq : w.body = body
  /-- and this size, -/
  size_eq : w.chunkSize = size
  /-- and it counted what was taken before. -/
  written_eq : w.written.toNat = (Turnstile.written before).length
  /-- The sum that says where the piece ends, at the latest, is a word. -/
  sum_lt : w.written.toNat + size.toNat < 2 ^ 64
  /-- The piece is the one that it finds. -/
  next_eq : w.next = .ok (stop, chunk)
  /-- It is not empty -/
  lt_stop : w.written < stop
  /-- and ends within the body. -/
  stop_le : stop ≤ body.size

/-- What is so of a writer that counts in words, when a writer without words would have come to
`course`. -/
structure Counts {σ : Type} [Exchange σ] (body : Block) (size : UInt64)
    (course : ResponseWriter.Course σ) (w : WordWriter) : Prop where
  /-- It is where that writer is. -/
  toWriter_eq : w.toWriter = course.writer
  /-- It counted the bytes that were taken. -/
  written_eq : w.written.toNat = (Turnstile.written course.calls).length
  /-- There are no more of them than the body has, -/
  written_le : w.written ≤ body.size
  /-- so what remains is a word too. -/
  remaining_eq : ∃ left, w.remaining = .ok left ∧ left.toNat = course.writer.remaining
  /-- Each piece was offered by a writer whose numbers were words. -/
  offers {before after : List Call} {chunk : Bytes} {reply : Reply} :
    course.calls = before ++ .write chunk reply :: after →
      ∃ v stop, Offers body size before chunk v stop
  /-- It does the same on the next event. -/
  next (event : IoEvent) : ∃ told, w.advance event course.exchange = .ok told ∧
    view told = course.writer.advance event course.exchange

section

variable {body : Block} {size : UInt64} {calls before after : List Call} {w : WordWriter}
  {chunk : Bytes} {reply : Reply}

/-- A writer that has counted what was taken before a piece finds that piece. -/
theorem exists_offers {u : ResponseWriter}
    (h : ResponseWriter.Sends body.bytes size.toNat calls u)
    (hcalls : calls = before ++ .write chunk reply :: after) :
    ∃ v stop, Offers body size before chunk v stop := by
  have hpiece := h.pieces hcalls
  have hlength := hpiece.length_eq
  have hpos := List.length_pos_iff.mpr hpiece.nonempty
  have hbody := body.length_lt
  obtain ⟨start, hstart⟩ : ∃ a : UInt64, a.toNat = (Turnstile.written before).length :=
    Word.exists_toNat (by omega)
  let v : WordWriter := ⟨body, start, size, h.size_eq ▸ u.chunkSize_pos⟩
  have hsteady : Steady body size v := by
    refine ⟨rfl, rfl, ?_, fun hzero _ ↦ ?_⟩
    · dsimp only [v]
      omega
    · dsimp only [v] at hzero ⊢
      rw [hstart] at hzero ⊢
      exact h.size_le hcalls (mt List.length_eq_zero_iff.mpr hzero)
  have hleft : v.written.toNat < body.bytes.length := by
    dsimp only [v]
    omega
  have hchunk : v.toWriter.unsent.take v.toWriter.chunkSize = chunk := by
    rw [← hpiece.eq_take, ← hstart]
    rfl
  obtain ⟨stop, hnext, hstop⟩ := hsteady.next (Block.lt_size.mpr hleft)
  rw [hchunk] at hnext
  refine ⟨v, stop, rfl, rfl, hstart, hsteady.sum_lt hleft, hnext, ?_, Block.le_size.mpr ?_⟩
  · exact UInt64.lt_iff_toNat_lt.mpr (lt_of_next (Block.lt_size.mpr hleft) hnext)
  · omega

theorem Steady.counts {σ : Type} [Exchange σ] {course : ResponseWriter.Course σ}
    (h : Steady body size w) (hwriter : w.toWriter = course.writer)
    (hsends : ResponseWriter.Sends body.bytes size.toNat course.calls course.writer) :
    Counts body size course w := by
  have hle := h.written_le
  have hremaining : course.writer.remaining = body.bytes.length - w.written.toNat := by
    rw [← hwriter, ResponseWriter.remaining, toWriter, List.length_drop, h.body_eq]
  refine ⟨hwriter, ?_, Block.le_size.mpr hle, ?_, exists_offers hsends, fun event ↦ ?_⟩
  · have hsplit := congrArg List.length hsends.split
    rw [List.length_append, ← ResponseWriter.remaining, hremaining] at hsplit
    omega
  · obtain ⟨left, hleft, hexact⟩ :=
      Word.sub_eq (a := body.size) (b := w.written) (by rwa [Block.toNat_size])
    refine ⟨left, ?_, by rw [hexact, Block.toNat_size, hremaining]⟩
    rw [remaining, h.body_eq, hleft]
  · obtain ⟨told, htold, hsame, -⟩ := h.advance event course.exchange
    exact ⟨told, htold, hwriter ▸ hsame⟩

end

theorem counts_new {σ : Type} [Exchange σ] (body : Block) (chunkSize : UInt64) (x : σ)
    (events : List IoEvent) :
    let course := (ResponseWriter.new body.bytes chunkSize.toNat).advanceAll x events
    ∃ w, (new body chunkSize).advanceAll x events = .ok ⟨w, course.exchange, course.calls⟩ ∧
      Counts body (max chunkSize 1) course w := by
  intro course
  have hsends : ResponseWriter.Sends body.bytes (max chunkSize 1).toNat course.calls
      course.writer := by
    rw [UInt64.toNat_max]
    exact (ResponseWriter.sends_new body.bytes chunkSize.toNat).advanceAll x events
  obtain ⟨⟨w, x', calls⟩, hrun, hview, hsteady⟩ := (steady_new body chunkSize).advanceAll x events
  rw [toWriter_new] at hview
  have hcourse : course = ⟨w.toWriter, x', calls⟩ := hview.symm
  rw [hcourse] at hsends ⊢
  exact ⟨w, hrun, hsteady.counts rfl hsends⟩

end WordWriter

/-! ## A reader -/

/-- A reader that counts in words. -/
structure WordReader where
  /-- The most bytes the body may have. -/
  limit : UInt64
  /-- The bytes that have arrived. -/
  buffer : Block

namespace WordReader

open BodyReader (Progress)

/-- A reader for at most `limit` bytes. -/
def new (limit : UInt64) : WordReader := ⟨limit, .empty⟩

/-- The same reader when it counts without words. -/
def toReader (r : WordReader) : BodyReader := ⟨r.limit.toNat, .ofList r.buffer.bytes⟩

/-- Take one event. A piece that does not exceed the limit is kept, if there is room for it. -/
def advance (room : Block → Block → Bool) (r : WordReader) :
    BlockEvent → Except Halt (Progress × WordReader)
  | ⟨.data chunk, fits⟩ => do
    let piece : Block := ⟨chunk, fits⟩
    let sum ← Word.add r.buffer.size piece.size
    if r.limit < sum then return (.limitExceeded r.limit.toNat, r)
    let buffer ← r.buffer.grow room piece
    return (.pending, { r with buffer })
  | ⟨.allRead, _⟩ => .ok (.complete r.buffer.bytes, { r with buffer := .empty })
  | ⟨.writable, _⟩ => .ok (.pending, r)
  | ⟨.error e, _⟩ => .ok (.failed e, r)

/-- Take events one after the other, whatever is answered, and tell the answers. -/
def advanceAll (room : Block → Block → Bool) (r : WordReader) :
    List BlockEvent → Except Halt (WordReader × List (IoEvent × Progress))
  | [] => .ok (r, [])
  | event :: events => do
    let told ← r.advance room event
    let later ← told.2.advanceAll room events
    return (later.1, (event.event, told.1) :: later.2)

/-- There is no room for the piece that an event brings, although it is within the limit. -/
def Lacks (room : Block → Block → Bool) (r : WordReader) (event : BlockEvent) : Prop :=
  ∃ piece : Block, event.event = .data piece.bytes ∧
    r.buffer.bytes.length + piece.bytes.length ≤ r.limit.toNat ∧
    (room r.buffer piece = true → 2 ^ 63 ≤ r.buffer.bytes.length + piece.bytes.length)

/-- What is so of the sum that a reader compares when it is brought a piece. -/
structure Compares (r : WordReader) (piece : Block) : Prop where
  /-- It is a word, -/
  sum_lt : r.toReader.buffer.size + piece.bytes.length < 2 ^ 64
  /-- and it is compared with the limit as it is. -/
  compare : ∃ sum, Word.add r.buffer.size piece.size = .ok sum ∧
    (r.limit < sum ↔ r.toReader.limit < r.toReader.buffer.size + piece.bytes.length)

@[simp] theorem toList_toReader (r : WordReader) :
    r.toReader.buffer.toList = r.buffer.bytes := Journal.toList_ofList _

@[simp] theorem size_toReader (r : WordReader) :
    r.toReader.buffer.size = r.buffer.bytes.length := by
  rw [← Journal.length_toList, toList_toReader]

theorem toReader_append {r : WordReader} {whole : Block} {chunk : Bytes}
    (h : whole.bytes = r.buffer.bytes ++ chunk) :
    toReader { r with buffer := whole } =
      { r.toReader with buffer := r.toReader.buffer ++ chunk } := by
  have hbuffer : Journal.ofList whole.bytes = r.toReader.buffer ++ chunk :=
    Journal.ext_toList (by rw [Journal.toList_ofList, Journal.toList_append, toList_toReader, h])
  rw [toReader, hbuffer]
  rfl

/-- Whatever the reader keeps and is brought, the comparison is exact. -/
theorem compares (r : WordReader) (piece : Block) : Compares r piece := by
  obtain ⟨sum, hsum, hcompare⟩ := Block.add_size_eq r.buffer piece
  rw [← size_toReader] at hcompare
  exact ⟨by simpa using Block.add_size_lt r.buffer piece, sum, hsum, hcompare r.limit⟩

theorem advance_cases (room : Block → Block → Bool) (r : WordReader) (event : BlockEvent) :
    (∃ told, r.advance room event = .ok told ∧
        (told.1, told.2.toReader) = r.toReader.advance event.event) ∨
      r.advance room event = .error .room ∧ r.Lacks room event := by
  obtain ⟨event, fits⟩ := event
  cases event with
  | data chunk =>
    obtain ⟨hlt, sum, hsum, hcompare⟩ := r.compares ⟨chunk, fits⟩
    by_cases hlimit : r.limit < sum
    · refine .inl ⟨_, Halt.bind_eq_ok.mpr ⟨sum, hsum, if_pos hlimit⟩, ?_⟩
      exact (BodyReader.advance_of_lt (hcompare.mp hlimit)).symm
    · have hle : r.toReader.buffer.size + chunk.length ≤ r.toReader.limit :=
        Nat.not_lt.mp (mt hcompare.mpr hlimit)
      have hkeep : r.advance room ⟨.data chunk, fits⟩ = (do
          let buffer ← r.buffer.grow room ⟨chunk, fits⟩
          return (.pending, { r with buffer })) := by
        rw [advance, hsum]
        exact if_neg hlimit
      rcases Block.grow_cases room r.buffer ⟨chunk, fits⟩ with ⟨whole, hgrow, hwhole⟩ |
        ⟨hgrow, hfull⟩
      · refine .inl ⟨(.pending, { r with buffer := whole }), ?_, ?_⟩
        · rw [hkeep, hgrow]
          rfl
        · rw [BodyReader.advance_of_le hle, ← toReader_append hwhole]
      · refine .inr ⟨?_, ⟨chunk, fits⟩, rfl, ?_, hfull⟩
        · rw [hkeep, hgrow]
          rfl
        · rwa [size_toReader] at hle
  | allRead =>
    refine .inl ⟨_, rfl, ?_⟩
    rw [BodyReader.advance, toList_toReader]
    rfl
  | writable => exact .inl ⟨_, rfl, rfl⟩
  | error e => exact .inl ⟨_, rfl, rfl⟩

/-- Words or not, the reader does the same on any events, up to a piece for which there is no
room. -/
theorem advanceAll_cases (room : Block → Block → Bool) (r : WordReader)
    (events : List BlockEvent) :
    (∃ course, r.advanceAll room events = .ok course ∧
        (course.1.toReader, course.2) = r.toReader.advanceAll (events.map (·.event))) ∨
      r.advanceAll room events = .error .room ∧
        ∃ before event after course, events = before ++ event :: after ∧
          r.advanceAll room before = .ok course ∧ course.1.Lacks room event := by
  induction events generalizing r with
  | nil => exact .inl ⟨_, rfl, rfl⟩
  | cons event events ih =>
    rcases r.advance_cases room event with ⟨told, htold, hview⟩ | ⟨herror, hlacks⟩
    · rcases ih told.2 with ⟨later, hlater, hviews⟩ | ⟨herror, before, event', after, course, rfl,
        hcourse, hlacks⟩
      · refine .inl ⟨_, Halt.bind_eq_ok.mpr ⟨told, htold,
          Halt.bind_eq_ok.mpr ⟨later, hlater, rfl⟩⟩, ?_⟩
        rw [List.map_cons, BodyReader.advanceAll, ← hview]
        dsimp only
        rw [← hviews]
      · refine .inr ⟨?_, event :: before, event', after, _, rfl,
          Halt.bind_eq_ok.mpr ⟨told, htold, Halt.bind_eq_ok.mpr ⟨course, hcourse, rfl⟩⟩, hlacks⟩
        rw [advanceAll, htold]
        change (told.2.advanceAll room _ >>= _) = _
        rw [herror]
        rfl
    · refine .inr ⟨?_, [], event, events, _, rfl, rfl, hlacks⟩
      rw [advanceAll, herror]
      rfl

end WordReader

/-! ## Both -/

/-- **Counting in words is exact.** With any body, any size of a piece, any exchange and any events,
a writer that counts in words does what a writer without words does. It never halts: where it looks
for a piece, the sum is a word and the piece lies within the body, and what remains is a difference
from a number that is not less. With any limit and any events, a reader that counts in words does
what a reader without words does up to a piece that there is no room for. The sum that it compares
with the limit is a word, so the comparison is that of the numbers. -/
theorem Word.counting_exact :
    (∀ {σ : Type} [Exchange σ] (body : Block) (chunkSize : UInt64) (x : σ) (events : List IoEvent),
      let course := (ResponseWriter.new body.bytes chunkSize.toNat).advanceAll x events
      ∃ w, (WordWriter.new body chunkSize).advanceAll x events =
          .ok ⟨w, course.exchange, course.calls⟩ ∧
        WordWriter.Counts body (max chunkSize 1) course w) ∧
    ∀ (limit : UInt64) (room : Block → Block → Bool) (events : List BlockEvent),
      let heard := (BodyReader.new limit.toNat).advanceAll (events.map (·.event))
      (∃ r, (WordReader.new limit).advanceAll room events = .ok (r, heard.2) ∧
        r.toReader = heard.1 ∧ ∀ piece, r.Compares piece) ∨
      (WordReader.new limit).advanceAll room events = .error .room ∧
        ∃ before event after course, events = before ++ event :: after ∧
          (WordReader.new limit).advanceAll room before = .ok course ∧
          course.1.Lacks room event := by
  refine ⟨fun body chunkSize x events ↦ WordWriter.counts_new body chunkSize x events, ?_⟩
  intro limit room events heard
  rcases (WordReader.new limit).advanceAll_cases room events with ⟨⟨r, told⟩, hrun, hview⟩ | hhalts
  · have hheard : heard = (r.toReader, told) := hview.symm
    rw [hheard]
    exact .inl ⟨r, hrun, rfl, r.compares⟩
  · exact .inr hhalts

end Turnstile
