import Turnstile.Proofs.Request.Phase

/-!
# What a reader reads

What reading a body comes to does not depend on how the transport cut it into pieces. The reader
checks the limit piece by piece, before it keeps the piece, and yet its verdict is that on the whole
body: the body itself if it is within the limit, and otherwise that it exceeds the limit, said at
the first piece with which it does.

Pieces that fit together are kept as one (`BodyReader.readAll_append`), and a body that exceeds a
limit has a first piece with which it does (`Cuts.exists_first`). Together these say what any
pieces come to.
-/

namespace Turnstile

/-! ## Bodies in pieces -/

/-- The events deliver a body in pieces, any of which may be empty. That a response may be written
may be reported in between. -/
inductive Cuts : Bytes → List IoEvent → Prop where
  | nil : Cuts [] []
  | data (chunk : Bytes) {body : Bytes} {events : List IoEvent} (rest : Cuts body events) :
      Cuts (chunk ++ body) (.data chunk :: events)
  | writable {body : Bytes} {events : List IoEvent} (rest : Cuts body events) :
      Cuts body (.writable :: events)

/-- A body that exceeds a limit has a first piece with which it does. -/
theorem Cuts.exists_first {body : Bytes} {events : List IoEvent} (h : Cuts body events)
    {limit : Nat} (hlimit : limit < body.length) :
    ∃ before chunk after front, events = before ++ .data chunk :: after ∧ Cuts front before ∧
      front.length ≤ limit ∧ limit < front.length + chunk.length := by
  induction h generalizing limit with
  | nil => cases hlimit
  | @data chunk body events rest ih =>
    rw [List.length_append] at hlimit
    by_cases hchunk : limit < chunk.length
    · exact ⟨[], chunk, events, [], rfl, .nil, Nat.zero_le limit, by simpa using hchunk⟩
    · have hrest : limit - chunk.length < body.length := by omega
      obtain ⟨before, chunk', after, front, rfl, hfront, hle, hlt⟩ := ih hrest
      refine ⟨.data chunk :: before, chunk', after, chunk ++ front, rfl, .data chunk hfront, ?_, ?_⟩
        <;> rw [List.length_append] <;> omega
  | writable rest ih =>
    obtain ⟨before, chunk, after, front, rfl, hfront, hbounds⟩ := ih hlimit
    exact ⟨.writable :: before, chunk, after, front, rfl, .writable hfront, hbounds⟩

namespace BodyReader

/-! ## Up to the first answer -/

/-- What reading came to. -/
structure Reading where
  /-- The answer to the last event that was looked at. -/
  progress : Progress
  /-- The reader after it. -/
  reader : BodyReader
  /-- The events that were not looked at. -/
  rest : List IoEvent

/-- Take events up to and including the first with which more is known than that more events are
needed. -/
def readAll (r : BodyReader) : List IoEvent → Reading
  | [] => ⟨.pending, r, []⟩
  | event :: events =>
    match r.advance event with
    | (.pending, r) => r.readAll events
    | (progress, r) => ⟨progress, r, events⟩

section

variable {r : BodyReader} {body chunk : Bytes} {events : List IoEvent}

theorem advance_of_lt (h : r.limit < r.buffer.size + chunk.length) :
    r.advance (.data chunk) = (.limitExceeded r.limit, r) := if_pos h

theorem advance_of_le (h : r.buffer.size + chunk.length ≤ r.limit) :
    r.advance (.data chunk) = (.pending, { r with buffer := r.buffer ++ chunk }) :=
  if_neg (Nat.not_lt.mpr h)

theorem readAll_append (h : Cuts body events) (hle : r.buffer.size + body.length ≤ r.limit)
    (more : List IoEvent) :
    r.readAll (events ++ more) =
      ({ r with buffer := r.buffer ++ body } : BodyReader).readAll more := by
  induction h generalizing r with
  | nil => rw [List.nil_append, Journal.append_nil]
  | data chunk rest ih =>
    rw [List.length_append, ← Nat.add_assoc] at hle
    have hchunk : r.buffer.size + chunk.length ≤ r.limit := Nat.le_of_add_right_le hle
    rw [List.cons_append, readAll, advance_of_le hchunk]
    dsimp only
    rw [ih (by rwa [Journal.size_append]), Journal.append_append]
  | writable rest ih => exact ih hle

variable {limit : Nat}

theorem readAll_new_append (h : Cuts body events) (hle : body.length ≤ limit)
    (more : List IoEvent) :
    (new limit).readAll (events ++ more) =
      (⟨limit, .ofList body⟩ : BodyReader).readAll more :=
  readAll_append h (by simpa [new, Journal.empty] using hle) more

theorem readAll_complete (h : Cuts body events) (hle : body.length ≤ limit)
    (later : List IoEvent) :
    (new limit).readAll (events ++ .allRead :: later) = ⟨.complete body, new limit, later⟩ := by
  rw [readAll_new_append h hle, readAll, advance]
  dsimp only
  rw [Journal.toList_ofList, new]

theorem readAll_failed (h : Cuts body events) (hle : body.length ≤ limit) (e : IoError)
    (later : List IoEvent) :
    (new limit).readAll (events ++ .error e :: later) =
      ⟨.failed e, ⟨limit, .ofList body⟩, later⟩ := by
  rw [readAll_new_append h hle, readAll, advance]

theorem readAll_exceeded (h : Cuts body events) (hle : body.length ≤ limit)
    (hlt : limit < body.length + chunk.length) (later : List IoEvent) :
    (new limit).readAll (events ++ .data chunk :: later) =
      ⟨.limitExceeded limit, ⟨limit, .ofList body⟩, later⟩ := by
  have hsize : (Journal.ofList body).size = body.length := by
    rw [← Journal.length_toList, Journal.toList_ofList]
  rw [readAll_new_append h hle, readAll, advance_of_lt (by rw [hsize]; exact hlt)]

/-- The answer in the end is the verdict on the whole body. -/
theorem progress_readAll (h : Cuts body events) :
    ((new limit).readAll (events ++ [.allRead])).progress =
      if body.length ≤ limit then .complete body else .limitExceeded limit := by
  split
  next hle => rw [readAll_complete h hle]
  next hgt =>
    obtain ⟨before, chunk, after, front, rfl, hfront, hle, hlt⟩ :=
      h.exists_first (Nat.not_le.mp hgt)
    rw [List.append_assoc, List.cons_append, readAll_exceeded hfront hle hlt]

end

/-- What is so of a body that is delivered in pieces and read with a limit. -/
structure Reads (limit : Nat) (body : Bytes) (events : List IoEvent) : Prop where
  /-- A body within the limit is read. -/
  complete (h : body.length ≤ limit) (later : List IoEvent) :
    (new limit).readAll (events ++ .allRead :: later) = ⟨.complete body, new limit, later⟩
  /-- A body that exceeds the limit is given up at the first piece with which it does. The pieces
  before it have been kept and those behind it are not looked at. -/
  exceeded (h : limit < body.length) :
    ∃ before chunk after front, events = before ++ .data chunk :: after ∧ Cuts front before ∧
      front.length ≤ limit ∧ limit < front.length + chunk.length ∧
      ∀ later, (new limit).readAll (events ++ later) =
        ⟨.limitExceeded limit, ⟨limit, .ofList front⟩, after ++ later⟩
  /-- A connection that fails before either ends the reading. -/
  failed (h : body.length ≤ limit) (e : IoError) (later : List IoEvent) :
    (new limit).readAll (events ++ .error e :: later) =
      ⟨.failed e, ⟨limit, .ofList body⟩, later⟩
  /-- The same body in other pieces is answered alike. -/
  same {events' : List IoEvent} (h : Cuts body events') :
    ((new limit).readAll (events' ++ [.allRead])).progress =
      ((new limit).readAll (events ++ [.allRead])).progress

theorem reads (limit : Nat) {body : Bytes} {events : List IoEvent} (h : Cuts body events) :
    Reads limit body events where
  complete := readAll_complete h
  exceeded hlt := by
    obtain ⟨before, chunk, after, front, rfl, hfront, hle, hgt⟩ := h.exists_first hlt
    refine ⟨before, chunk, after, front, rfl, hfront, hle, hgt, fun later ↦ ?_⟩
    rw [List.append_assoc, List.cons_append, readAll_exceeded hfront hle hgt]
  failed := readAll_failed h
  same h' := by rw [progress_readAll h', progress_readAll h]

/-! ## At any moment -/

/-- Take events one after the other, whatever is answered, and tell the answers. -/
def advanceAll (r : BodyReader) : List IoEvent → BodyReader × List (IoEvent × Progress)
  | [] => (r, [])
  | event :: events =>
    let told := r.advance event
    let later := told.2.advanceAll events
    (later.1, (event, told.1) :: later.2)

/-- What a reader keeps when it gave an answer to an event: a piece that it accepted stands behind
those before it, and a body that it handed over is not kept. -/
def keep (front : Bytes) : IoEvent × Progress → Bytes
  | (.data chunk, .pending) => front ++ chunk
  | (.allRead, _) => []
  | _ => front

/-- What is so of a reader at any moment, when it keeps `front`. -/
structure Holds (limit : Nat) (front : Bytes) (r : BodyReader) : Prop where
  /-- Its limit is the one it began with. -/
  limit_eq : r.limit = limit
  /-- It keeps the pieces that it accepted. -/
  buffer_eq : r.buffer.toList = front
  /-- They are within the limit. -/
  length_le : front.length ≤ limit
  /-- A piece that does not fit behind them leaves the reader as it is. -/
  refuses {chunk : Bytes} (h : limit < front.length + chunk.length) :
    r.advance (.data chunk) = (.limitExceeded limit, r)
  /-- Any other is accepted. -/
  accepts {chunk : Bytes} (h : front.length + chunk.length ≤ limit) :
    (r.advance (.data chunk)).1 = .pending

section

variable {limit : Nat} {front : Bytes} {r : BodyReader}

theorem holds_of (hlimit : r.limit = limit) (hbuffer : r.buffer.toList = front)
    (hle : front.length ≤ limit) : Holds limit front r where
  limit_eq := hlimit
  buffer_eq := hbuffer
  length_le := hle
  refuses h := by
    subst hlimit hbuffer
    rw [Journal.length_toList] at h
    exact advance_of_lt h
  accepts h := by
    subst hlimit hbuffer
    rw [Journal.length_toList] at h
    rw [advance_of_le h]

theorem Holds.advance (h : Holds limit front r) (event : IoEvent) :
    Holds limit (keep front (event, (r.advance event).1)) (r.advance event).2 := by
  obtain ⟨rfl, rfl, hle, -, -⟩ := h
  cases event with
  | allRead => exact holds_of rfl rfl (Nat.zero_le _)
  | writable | error e => exact holds_of rfl rfl hle
  | data chunk =>
    by_cases hlt : r.limit < r.buffer.size + chunk.length
    · rw [advance_of_lt hlt]
      exact holds_of rfl rfl hle
    · rw [advance_of_le (Nat.not_lt.mp hlt)]
      refine holds_of rfl (Journal.toList_append _ _) ?_
      rw [keep, List.length_append, Journal.length_toList]
      exact Nat.not_lt.mp hlt

theorem Holds.advanceAll (h : Holds limit front r) (events : List IoEvent) :
    Holds limit ((r.advanceAll events).2.foldl keep front) (r.advanceAll events).1 := by
  induction events generalizing r front with
  | nil => exact h
  | cons event events ih => exact ih (h.advance event)

theorem holds_new (limit : Nat) : Holds limit [] (new limit) := holds_of rfl rfl (Nat.zero_le limit)

end

theorem stage_depart {σ : Type} [Exchange σ] (r : Request σ) (limit maxBodyBytes chunkSize : Nat)
    (next : Value → Program) :
    (r.depart maxBodyBytes chunkSize (.readBody limit next)).1.stage =
      match (Exchange.readBody r.exchange).1.error? with
      | none => .reading (new (min limit maxBodyBytes)) next
      | some e => .failing (.readStart e) := by
  rw [Request.depart, Request.beginRead]
  split
  next reply begun exchange hread =>
    rw [hread]
    dsimp only
    cases reply.error? <;> rfl

/-- **What reading comes to does not depend on the pieces.** A body in any pieces is read up to the
limit as the whole body would be; at any moment, whatever the events, a reader keeps exactly what it
accepted, and never more than its limit; and a request begins to read with the limit that was asked
for, or the greatest one if that is less. -/
theorem reads_of_cuts {body : Bytes} {events : List IoEvent} (h : Cuts body events) :
    (∀ limit, Reads limit body events) ∧
      (∀ limit heard, Holds limit (((new limit).advanceAll heard).2.foldl keep [])
        ((new limit).advanceAll heard).1) ∧
      ∀ {σ : Type} [Exchange σ] (r : Request σ) (limit maxBodyBytes chunkSize : Nat)
        (next : Value → Program),
        (r.depart maxBodyBytes chunkSize (.readBody limit next)).1.stage =
          match (Exchange.readBody r.exchange).1.error? with
          | none => .reading (new (min limit maxBodyBytes)) next
          | some e => .failing (.readStart e) :=
  ⟨fun limit ↦ reads limit h, fun limit ↦ (holds_new limit).advanceAll, stage_depart⟩

/-- Three bytes, of which the first two come with an empty piece before them and word of a response
in between, are read with a limit of three and given up at the last one with a limit of two. -/
theorem reads_of_cuts_three :
    ((new 3).readAll [.data [], .data [1, 2], .writable, .data [3], .allRead]).progress =
        .complete [1, 2, 3] ∧
      ((new 2).readAll [.data [], .data [1, 2], .writable, .data [3], .allRead]).progress =
        .limitExceeded 2 ∧
      Reads 2 [1, 2, 3] [.data [], .data [1, 2], .writable, .data [3]] :=
  have h : Cuts [1, 2, 3] [.data [], .data [1, 2], .writable, .data [3]] :=
    .data [] (.data [1, 2] (.writable (.data [3] .nil)))
  ⟨congrArg Reading.progress (((reads_of_cuts h).1 3).complete (by decide) []), rfl,
    (reads_of_cuts h).1 2⟩

end BodyReader

/-! ## The request that reads -/

namespace Request

variable {σ : Type} {r : Request σ} {next : Value → Program}

/-- Where a request goes on that reads its body, by the answer of its reader. -/
def afterRead (r : Request σ) (next : Value → Program) (reader : BodyReader) :
    BodyReader.Progress → Request σ
  | .pending => { r with stage := .reading reader next }
  | .complete body => (r.endRead .returning).resume .returning next (.bytes body)
  | .limitExceeded limit => r.endRead (.departed (.respond (.tooLarge limit)))
  | .failed e => r.endRead (.failing (.read e))

theorem receiveRead_eq (r : Request σ) (reader : BodyReader) (next : Value → Program)
    (event : IoEvent) :
    r.receiveRead reader next event =
      r.afterRead next (reader.advance event).2 (reader.advance event).1 := by
  unfold receiveRead
  split
  all_goals
    next h => rw [h]; rfl

variable [Exchange σ]

theorem receiveAll_reading {reader : BodyReader} (h : r.stage = .reading reader next)
    (events : List IoEvent) :
    r.receiveAll events =
      (r.afterRead next (reader.readAll events).reader (reader.readAll events).progress, []) := by
  induction events generalizing r reader with
  | nil =>
    obtain ⟨ordinal, dossier, exchange, program, stage, closed, reads, writes⟩ := r
    cases h
    rfl
  | cons event events ih =>
    have hphase : r.stage.phase? = some .read := by
      rw [h]
      rfl
    have hone : r.receive event = (r.receiveRead reader next event, []) := by
      rw [receive]
      simp only [h]
    rw [receiveAll_cons hphase, hone, receiveRead_eq, BodyReader.readAll]
    cases hadvance : reader.advance event with
    | mk progress reader' =>
      cases progress with
      | pending => rw [ih rfl]; rfl
      | _ => rw [receiveAll_of_phase? rfl]; rfl

/-- However the body was cut into pieces, the program goes on with the whole body, or the request is
answered that its body is too large. -/
theorem receiveAll_of_cuts {limit : Nat} {body : Bytes} {events : List IoEvent}
    (hstage : r.stage = .reading (.new limit) next) (h : Cuts body events) :
    r.receiveAll (events ++ [.allRead]) =
      (if body.length ≤ limit then (r.endRead .returning).resume .returning next (.bytes body)
        else r.endRead (.departed (.respond (.tooLarge limit))), []) := by
  rw [receiveAll_reading hstage, BodyReader.progress_readAll h]
  split <;> rfl

end Request

end Turnstile
