import Turnstile.Routine.Dialogue

/-!
# Evaluating a routine directly

What a routine does with a list of answers, read off the routine itself: a bind is its base, then
what follows the value of the base. No engine takes part in this, nothing is rotated, and no
continuation is ever composed with another.

The engine stops at every question, and is run anew on what the continuation makes of the answer.
That its runs show what the direct evaluation says (`Routine.shows_eq_eval`) goes through the
dialogue of the routine, where binds are nested in no way at all: the evaluation is the play of the
dialogue, since playing respects binds, and so are the runs of the engine, since each of them
follows the dialogue up to its first question.
-/

namespace Turnstile

namespace Routine

variable {Op V : Type}

/-! ## What the engine shows -/

/-- What a run of the engine shows: where it stopped, or how it ended. -/
inductive Sign (Op V : Type) where
  /-- It stopped at a question. -/
  | asked (op : Op)
  /-- It finished with a value. -/
  | finished (value : V)
  /-- It broke off. -/
  | faulted (fault : Fault)
  deriving DecidableEq

/-- What an outcome shows. -/
def Outcome.sign : Outcome Op V → Sign Op V
  | .finished value => .finished value
  | .suspended op _ => .asked op
  | .faulted fault => .faulted fault

/-- What the runs of the engine show, one after the other: each question is answered with the next
answer, and the continuation it stopped with is run on that. -/
def shows (r : Routine Op V) (answers : List V) : List (Sign Op V) :=
  (r.converse answers).map Outcome.sign

/-! ## The direct evaluation -/

/-- How an evaluation ends. -/
inductive Ending (V : Type) where
  /-- With a value, and with the answers that were not used. -/
  | yields (value : V) (unused : List V)
  /-- It breaks off. -/
  | breaks (fault : Fault)
  /-- It waits for an answer, and there is none left. -/
  | waits

/-- What an evaluation comes to. -/
structure Evaluation (Op V : Type) where
  /-- The questions it asked, in order. -/
  asked : List Op
  /-- How it ends. -/
  ending : Ending V

namespace Evaluation

/-- Another evaluation goes on with the value, where the first ends with one. -/
def andThen (e : Evaluation Op V) (next : V → List V → Evaluation Op V) : Evaluation Op V :=
  match e.ending with
  | .yields value unused =>
    ⟨e.asked ++ (next value unused).asked, (next value unused).ending⟩
  | .breaks fault => ⟨e.asked, .breaks fault⟩
  | .waits => ⟨e.asked, .waits⟩

/-- One more question before an evaluation. -/
def after (op : Op) (e : Evaluation Op V) : Evaluation Op V := ⟨op :: e.asked, e.ending⟩

/-- What an evaluation shows: its questions, then its value or its fault, if it ends. -/
def signs (e : Evaluation Op V) : List (Sign Op V) :=
  e.asked.map .asked ++
    match e.ending with
    | .yields value _ => [.finished value]
    | .breaks fault => [.faulted fault]
    | .waits => []

theorem after_andThen (op : Op) (e : Evaluation Op V) (next : V → List V → Evaluation Op V) :
    (e.after op).andThen next = (e.andThen next).after op := by
  obtain ⟨asked, ending⟩ := e
  cases ending <;> rfl

end Evaluation

/-- What a routine does with some answers: a value is there at once, a question takes the next
answer, and a bind evaluates its base and then what follows the value of the base. -/
def eval : Routine Op V → List V → Evaluation Op V
  | .pure value, answers => ⟨[], .yields value answers⟩
  | .raise fault, _ => ⟨[], .breaks fault⟩
  | .suspend op, [] => ⟨[op], .waits⟩
  | .suspend op, answer :: answers => ⟨[op], .yields answer answers⟩
  | .flatMap base next, answers =>
    (base.eval answers).andThen fun value unused ↦ (next value).eval unused

end Routine

/-! ## Playing a dialogue -/

namespace Dialogue

open Routine (Evaluation)

variable {Op V : Type}

/-- What a dialogue comes to with some answers. -/
def play : Dialogue Op V → List V → Evaluation Op V
  | .finished value, answers => ⟨[], .yields value answers⟩
  | .faulted fault, _ => ⟨[], .breaks fault⟩
  | .asks op _, [] => ⟨[op], .waits⟩
  | .asks op next, answer :: answers => ((next answer).play answers).after op

theorem play_bind (d : Dialogue Op V) (next : V → Dialogue Op V) (answers : List V) :
    (d.bind next).play answers =
      (d.play answers).andThen fun value unused ↦ (next value).play unused := by
  induction d generalizing answers with
  | finished value => rfl
  | faulted fault => rfl
  | asks op more ih =>
    cases answers with
    | nil => rfl
    | cons answer answers =>
      calc ((asks op more).bind next).play (answer :: answers)
        _ = (((more answer).bind next).play answers).after op := rfl
        _ = (((more answer).play answers).andThen
              fun value unused ↦ (next value).play unused).after op := by rw [ih]
        _ = (((more answer).play answers).after op).andThen
              fun value unused ↦ (next value).play unused := (Evaluation.after_andThen ..).symm

end Dialogue

namespace Routine

variable {Op V : Type}

theorem eval_eq_play (r : Routine Op V) (answers : List V) :
    r.eval answers = r.dialogue.play answers := by
  induction r generalizing answers with
  | pure value => rfl
  | raise fault => rfl
  | suspend op => cases answers <;> rfl
  | flatMap base next ihBase ihNext =>
    rw [dialogue, Dialogue.play_bind, ← ihBase, eval]
    congr 1
    funext value unused
    exact ihNext value unused

theorem shows_eq_play (r : Routine Op V) (answers : List V) :
    r.shows answers = (r.dialogue.play answers).signs := by
  induction answers generalizing r with
  | nil =>
    rw [← dialogue_run, shows, converse]
    cases r.run <;> rfl
  | cons answer answers ih =>
    rw [← dialogue_run, shows, converse]
    cases r.run with
    | finished value => rfl
    | faulted fault => rfl
    | suspended op next => exact congrArg (.asked op :: ·) (ih (next answer))

/-- Run with any answers, a routine of whatever nesting asks what its direct evaluation asks, in the
same order, and ends with the same value or the same fault at the same point. -/
theorem shows_eq_eval (r : Routine Op V) (answers : List V) :
    r.shows answers = (r.eval answers).signs := by
  rw [eval_eq_play]
  exact shows_eq_play r answers

/-- A rotation, a question inside it, and a fault behind the answer. -/
example :
    (((Routine.pure 1 : Routine Unit Nat).flatMap fun n ↦
        (Routine.suspend ()).flatMap fun a ↦ .pure (a + n)).flatMap fun n ↦
          if n = 3 then .raise .unlabelled else .pure n).shows [2] =
      [.asked (), .faulted .unlabelled] := by
  rw [shows_eq_play]
  rfl

end Routine

end Turnstile
