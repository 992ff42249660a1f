import Turnstile.Meaning
import Turnstile.Routine.Run

/-!
# The engine keeps the meaning

The engine turns a program over until it stops: it resumes continuations and rotates binds to the
right. Neither changes what the program means, so a program means what its engine stops at means.
What an operation means is what the dossier's answer to it leads to, and what a delivery means does
not depend on how its bytes were cut into pieces.
-/

namespace Turnstile

namespace Meaning

variable {t : Terms} {s : State}

/-! ## Programs -/

/-- The meaning of what a run of a program stops at. -/
def ofOutcome (t : Terms) : Routine.Outcome Operation Value → State → Verdict × State
  | .finished v, s => (.yields v, s)
  | .faulted f, s => (.fails (.program f), s)
  | .suspended op next, s => andThen (ofOperation t op s) fun v s ↦ ofProgram t (next v) s

theorem andThen_yields (o : Verdict × State) : andThen o (fun v s ↦ (.yields v, s)) = o := by
  obtain ⟨verdict, s⟩ := o
  cases verdict <;> rfl

theorem ofOutcome_of_reduce {p : Program} {outcome : Routine.Outcome Operation Value}
    (h : p.reduce = .inl outcome) (s : State) : ofOutcome t outcome s = ofProgram t p s := by
  unfold Routine.reduce at h
  split at h <;> cases h
  case h_2 op => exact andThen_yields _
  all_goals rfl

/-- A turn of the engine keeps the meaning. -/
theorem ofProgram_of_reduce {p p' : Program} (h : p.reduce = .inr p') (s : State) :
    ofProgram t p' s = ofProgram t p s := by
  unfold Routine.reduce at h
  split at h <;> cases h
  case h_4 v next => rfl
  -- the rotation of a bind is associativity
  case h_7 base next₁ next₂ => exact (andThen_assoc _ _ _).symm

theorem ofProgram_run (p : Program) (s : State) :
    ofOutcome t p.run s = ofProgram t p s := by
  induction p using Routine.wellFounded_follows.induction with
  | _ p ih =>
    -- the induction is on the turns of the engine, which come to an end
    unfold Routine.run
    split
    next outcome h => exact ofOutcome_of_reduce h s
    next p' h => rw [ih p' (.turn h), ofProgram_of_reduce h]

/-- A whole program that begins with `base` means `base`, then what follows. -/
theorem ofWhole_flatMap (base : Program) (next : Value → Program) (s : State) :
    ofWhole t (.flatMap base next) s =
      andThen (ofProgram t base s) fun v s ↦ ofWhole t (next v) s :=
  andThen_assoc _ _ _

theorem ofWhole_readBody (limit : Nat) (next : Value → Program) (dossier : Dossier)
    (body : Delivery) (bodies : List Delivery) (notes : List String) :
    ofWhole t (.flatMap (.suspend (.readBody limit)) next) ⟨dossier, body :: bodies, notes⟩ =
      andThen (ofBody (min limit t.maxBodyBytes) body, ⟨dossier, bodies, notes⟩)
        fun v s ↦ ofWhole t (next v) s :=
  ofWhole_flatMap _ _ _

theorem ofWhole_run (p : Program) (s : State) :
    ofWhole t p s = andThen (ofOutcome t p.run s) conclude := by
  rw [ofProgram_run]
  rfl

/-! ## Operations -/

/-- What a reaction of the dossier means for the bodies and the notes of `s`. -/
def ofReaction (t : Terms) (s : State) : Reaction → Verdict × State
  | .resume v dossier => (.yields v, { s with dossier })
  | .enter p dossier => ofProgram t p { s with dossier }
  | .respond response => (.responds response, s)
  | .readBody limit => readBody t limit s
  | .fault f dossier => (.fails (.program f), { s with dossier })
  | .act action => ofAction s action

theorem ofOperation_eq (op : Operation) (s : State) :
    ofOperation t op s = ofReaction t s (s.dossier.answer t.metadata op) := by
  cases op with
  | invokeCleaner handle =>
    rw [Dossier.answer]
    change invokeCleaner handle s = _
    rw [invokeCleaner]
    obtain ⟨result, c⟩ := s.dossier.cleaners.invoke handle
    cases result <;> rfl
  | routePath matcher =>
    rw [Dossier.answer]
    change ofMatch t (matcher s.dossier.path) s = _
    cases matcher s.dossier.path <;> rfl
  | _ => rfl

/-! ## Deliveries -/

namespace Delivery

variable {events : List IoEvent}

theorem ofEvents_merge (front chunk : Bytes) (events : List IoEvent) :
    ofEvents (.data (front ++ chunk) :: events) =
      ofEvents (.data front :: .data chunk :: events) := by
  simp only [ofEvents, List.append_assoc]

theorem ofEvents_nil_piece (events : List IoEvent) :
    ofEvents (.data [] :: events) = ofEvents events := rfl

theorem ofEvents_writable (front : Bytes) (events : List IoEvent) :
    ofEvents (.data front :: .writable :: events) = ofEvents (.data front :: events) := rfl

end Delivery

theorem ofBody_of_lt {limit : Nat} {d : Delivery} (h : limit < d.bytes.length) :
    ofBody limit d = .responds (.tooLarge limit) := if_pos h

theorem ofBody_allRead {limit : Nat} {body : Bytes} (h : body.length ≤ limit)
    (events : List IoEvent) :
    ofBody limit (.ofEvents (.data body :: .allRead :: events)) = .yields (.bytes body) := by
  simp only [ofBody, Delivery.ofEvents, List.append_nil, if_neg (Nat.not_lt.mpr h)]

theorem ofBody_error {limit : Nat} {body : Bytes} (h : body.length ≤ limit) (e : IoError)
    (events : List IoEvent) :
    ofBody limit (.ofEvents (.data body :: .error e :: events)) = .fails (.read e) := by
  simp only [ofBody, Delivery.ofEvents, List.append_nil, if_neg (Nat.not_lt.mpr h)]

theorem ofBody_nil {limit : Nat} {body : Bytes} (h : body.length ≤ limit) :
    ofBody limit (.ofEvents [.data body]) = .waits := by
  simp only [ofBody, Delivery.ofEvents, List.append_nil, if_neg (Nat.not_lt.mpr h)]

end Meaning

end Turnstile
