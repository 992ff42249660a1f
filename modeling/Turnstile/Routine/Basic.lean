import Turnstile.Fault

/-!
# Routines

A routine is a program that can stop in the middle and ask its caller for something. It is a
chain of finished values, questions and binds; the engine that runs it is in
`Turnstile.Routine.Run`. The questions (`Op`) and the values that flow between binds (`V`) are
parameters: nothing here knows what a question means.
-/

namespace Turnstile

/-- A suspendable program that asks questions of type `Op` and passes values of type `V`. -/
inductive Routine (Op V : Type) where
  /-- A finished computation. -/
  | pure (value : V)
  /-- Stop and ask the caller. -/
  | suspend (op : Op)
  /-- Run `base`, then feed its value to the continuation. -/
  | flatMap (base : Routine Op V) (next : V → Routine Op V)
  /-- Break off with a fault. -/
  | raise (fault : Fault)

namespace Routine

variable {Op V : Type}

instance [Inhabited V] : Inhabited (Routine Op V) := ⟨.pure default⟩

/-- The outermost form of a routine. -/
def tag : Routine Op V → String
  | .pure _ => "pure"
  | .suspend _ => "suspend"
  | .flatMap _ _ => "flat_map"
  | .raise _ => "raise"

/-- A routine as text between what opens and what closes the binds around it. -/
def inspectWithin (showOp : Op → String) (opening closing : String) : Routine Op V → String
  | .pure _ => opening ++ "Pure(..)" ++ closing
  | .suspend op => opening ++ "Suspend(" ++ showOp op ++ ")" ++ closing
  | .flatMap base _ => base.inspectWithin showOp (opening ++ "FlatMap(") (closing ++ ", \"..\")")
  | .raise _ => opening ++ "Raise(..)" ++ closing

/-- A routine as text: values and continuations are hidden, questions are shown by `showOp`. -/
def inspect (showOp : Op → String) (routine : Routine Op V) : String :=
  routine.inspectWithin showOp "" ""

/-- Bind the same continuation `count` times, nested to the left. -/
def bindTimes (next : V → Routine Op V) : Nat → Routine Op V → Routine Op V
  | 0, routine => routine
  | count + 1, routine => bindTimes next count (routine.flatMap next)

end Routine

end Turnstile
