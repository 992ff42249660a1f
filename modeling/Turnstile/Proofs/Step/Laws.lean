import Turnstile.Proofs.Routine.Equivalence
import Turnstile.Step

/-!
# The laws of steps

A step is seen through the engine as its program is, but for its end: whoever takes the value of a
step of kind `k` takes it as one of that kind, and anything else is a fault. Two steps are
equivalent if they look the same in this way, with any answers, of whatever kinds.

`Step.dialogue` is the dialogue of a step with its end looked at in this way. It determines what is
shown and is determined by it (`Step.equivalent_iff`), and that of a bind is a bind of dialogues
(`Step.dialogue_flatMap`). The laws follow from there.
-/

namespace Turnstile

open Routine (Sign Evaluation)

namespace Routine.Sign

variable {Op V W : Type}

/-- A sign with its final value changed. -/
def map (f : V → W) : Sign Op V → Sign Op W
  | .asked op => .asked op
  | .finished value => .finished (f value)
  | .faulted fault => .faulted fault

/-- A sign with its final value taken as one of kind `k`. -/
def as (k : Kind) : Sign Op Value → Sign Op k.Carrier
  | .asked op => .asked op
  | .finished v =>
    match k.project? v with
    | some x => .finished x
    | none => .faulted (.wrongKind k)
  | .faulted fault => .faulted fault

@[simp] theorem as_map_inject (k : Kind) (sign : Sign Op k.Carrier) :
    (sign.map k.inject).as k = sign := by
  cases sign with
  | asked op => rfl
  | finished x => simp only [map, as, Kind.project?_inject]
  | faulted fault => rfl

theorem map_inject_as {k : Kind} {sign : Sign Op Value}
    (h : ∀ v, sign = .finished v → (k.project? v).isSome) :
    (sign.as k).map k.inject = sign := by
  cases sign with
  | asked op => rfl
  | finished v =>
    obtain ⟨x, hx⟩ := Option.isSome_iff_exists.mp (h v rfl)
    simp only [as, hx, map, Kind.inject_of_project? hx]
  | faulted fault => rfl

end Routine.Sign

namespace Step

variable {i j k : Kind}

/-! ## What is shown of a step -/

/-- What the runs of a step show, with its final value taken as one of its kind. -/
def shows (s : Step k) (answers : List Value) : List (Sign Operation k.Carrier) :=
  (s.program.shows answers).map (Sign.as k)

/-- With any answers, the engine shows the same of both: the same questions in the same order, and
the same value or the same fault at the end. -/
def Equivalent (s t : Step k) : Prop := ∀ answers : List Value, s.shows answers = t.shows answers

/-- What code that may break off comes to. -/
def ofExcept : Except Fault k.Carrier → Step k
  | .ok x => pure x
  | .error fault => raise fault

/-- Change the value by code that may break off. -/
def tryMap (f : j.Carrier → Except Fault k.Carrier) (s : Step j) : Step k :=
  s.flatMap fun x ↦ ofExcept (f x)

/-! ## The dialogue of a step -/

/-- The dialogue of a step, with a fault in place of a value that is not of its kind. -/
def dialogue (s : Step k) : Dialogue Operation Value := (s.flatMap pure).program.dialogue

theorem signs_andThen_expect (k : Kind) (e : Evaluation Operation Value) :
    (e.andThen fun v unused ↦
        (expect k (fun x ↦ (pure x).program) v).dialogue.play unused).signs =
      (e.signs.map (Sign.as k)).map (Sign.map k.inject) := by
  have hasked (asked : List Operation) : ((asked.map Sign.asked).map (Sign.as k)).map
      (Sign.map k.inject) = asked.map Sign.asked := by
    simp only [List.map_map]
    rfl
  obtain ⟨asked, ending⟩ := e
  cases ending with
  | yields v unused =>
    simp only [Evaluation.andThen, Evaluation.signs, expect, List.map_append, hasked,
      List.map_cons, List.map_nil, Sign.as]
    cases k.project? v with
    | some x => simp [pure, Routine.dialogue, Dialogue.play, Sign.map]
    | none => simp [Routine.dialogue, Dialogue.play, Sign.map]
  | breaks fault =>
    simp only [Evaluation.andThen, Evaluation.signs, List.map_append, hasked]
    rfl
  | waits =>
    simp only [Evaluation.andThen, Evaluation.signs, List.map_append, hasked]
    rfl

theorem shows_program_flatMap_pure (s : Step k) (answers : List Value) :
    (s.flatMap pure).program.shows answers = (s.shows answers).map (Sign.map k.inject) := by
  rw [shows, Routine.shows_eq_play, Routine.shows_eq_play, ← signs_andThen_expect,
    ← Dialogue.play_bind]
  rfl

theorem equivalent_iff {s t : Step k} : s.Equivalent t ↔ s.dialogue = t.dialogue := by
  constructor
  · intro h
    apply Dialogue.eq_of_signs_play
    intro answers
    rw [dialogue, dialogue, ← Routine.shows_eq_play, ← Routine.shows_eq_play,
      shows_program_flatMap_pure, shows_program_flatMap_pure, h answers]
  · intro h answers
    have hprogram : (s.shows answers).map (Sign.map k.inject) =
        (t.shows answers).map (Sign.map k.inject) := by
      rw [← shows_program_flatMap_pure, ← shows_program_flatMap_pure]
      exact Routine.equivalent_iff.mpr h answers
    have htaken := congrArg (List.map (Sign.as k)) hprogram
    simpa [List.map_map, Function.comp_def] using htaken

theorem dialogue_flatMap (s : Step j) (f : j.Carrier → Step k) :
    (s.flatMap f).dialogue =
      s.dialogue.bind fun v ↦ (expect j (fun x ↦ ((f x).flatMap pure).program) v).dialogue := by
  simp only [dialogue, flatMap, Routine.dialogue, Dialogue.bind_bind]
  congr 1
  funext v
  unfold expect
  cases j.project? v with
  | none => rfl
  | some x =>
    simp only [pure, Routine.dialogue, Dialogue.bind, Kind.project?_inject]

theorem dialogue_pure (x : k.Carrier) : (pure x).dialogue = .finished (k.inject x) := by
  simp only [dialogue, flatMap, pure, Routine.dialogue, Dialogue.bind, expect,
    Kind.project?_inject]

/-! ## The laws -/

namespace Equivalent

theorem refl (s : Step k) : s.Equivalent s := fun _ ↦ rfl

theorem trans {s t u : Step k} (h : s.Equivalent t) (h' : t.Equivalent u) : s.Equivalent u :=
  fun answers ↦ (h answers).trans (h' answers)

theorem pure_flatMap (x : j.Carrier) (f : j.Carrier → Step k) :
    ((pure x).flatMap f).Equivalent (f x) := by
  rw [equivalent_iff, dialogue_flatMap, dialogue_pure, Dialogue.bind, expect, Kind.project?_inject]
  rfl

theorem flatMap_pure (s : Step k) : (s.flatMap pure).Equivalent s := by
  intro answers
  rw [shows, shows_program_flatMap_pure, List.map_map]
  exact List.map_congr_left (fun sign _ ↦ Sign.as_map_inject k sign) |>.trans (List.map_id _)

theorem flatMap_flatMap (s : Step i) (f : i.Carrier → Step j) (g : j.Carrier → Step k) :
    ((s.flatMap f).flatMap g).Equivalent (s.flatMap fun x ↦ (f x).flatMap g) := by
  rw [equivalent_iff, dialogue_flatMap, dialogue_flatMap, dialogue_flatMap, Dialogue.bind_bind]
  congr 1
  funext v
  unfold expect
  cases i.project? v with
  | none => rfl
  | some x => exact (dialogue_flatMap (f x) g).symm

theorem flatMap {s t : Step j} {f g : j.Carrier → Step k} (h : s.Equivalent t)
    (hnext : ∀ x, (f x).Equivalent (g x)) : (s.flatMap f).Equivalent (t.flatMap g) := by
  rw [equivalent_iff, dialogue_flatMap, dialogue_flatMap, equivalent_iff.mp h]
  congr 1
  funext v
  unfold expect
  cases j.project? v with
  | none => rfl
  | some x => exact equivalent_iff.mp (hnext x)

theorem ofExcept_flatMap (e : Except Fault j.Carrier) (g : j.Carrier → Except Fault k.Carrier) :
    ((ofExcept e).flatMap fun x ↦ ofExcept (g x)).Equivalent (ofExcept (e >>= g)) := by
  cases e with
  | ok x => exact pure_flatMap x fun x ↦ ofExcept (g x)
  | error fault => exact equivalent_iff.mpr rfl

theorem tryMap_tryMap (s : Step i) (f : i.Carrier → Except Fault j.Carrier)
    (g : j.Carrier → Except Fault k.Carrier) :
    ((s.tryMap f).tryMap g).Equivalent (s.tryMap fun x ↦ f x >>= g) := by
  apply Equivalent.trans (flatMap_flatMap s _ _)
  apply flatMap (refl s)
  intro x
  exact ofExcept_flatMap (f x) g

end Equivalent

/-- If a program ends with a value of its kind or not at all, going on with the value as it is
changes nothing to the letter. -/
theorem shows_program_flatMap_pure_of_isSome {s : Step k} {answers : List Value}
    (h : ∀ v, .finished v ∈ s.program.shows answers → (k.project? v).isSome) :
    (s.flatMap pure).program.shows answers = s.program.shows answers := by
  rw [shows_program_flatMap_pure, shows, List.map_map]
  calc (s.program.shows answers).map (Sign.map k.inject ∘ Sign.as k)
    _ = (s.program.shows answers).map id :=
      List.map_congr_left fun sign hsign ↦ Sign.map_inject_as fun v hv ↦ h v (hv ▸ hsign)
    _ = s.program.shows answers := List.map_id _

/-- Routines and steps under their binds, up to what the engine shows with any answers. What
follows a value takes over from it, going on with the value as it is changes nothing, binds may be
nested to the left or to the right, two changes of a value are one, also where they break off,
steps in a row may be grouped in any way, and both sides of a bind may be replaced by equivalent
ones. -/
theorem flatMap_laws :
    (∀ (Op V : Type) (value : V) (next : V → Routine Op V),
      ((Routine.pure value).flatMap next).Equivalent (next value)) ∧
    (∀ (Op V : Type) (p : Routine Op V), (p.flatMap .pure).Equivalent p) ∧
    (∀ (Op V : Type) (p : Routine Op V) (next₁ next₂ : V → Routine Op V),
      ((p.flatMap next₁).flatMap next₂).Equivalent
        (p.flatMap fun value ↦ (next₁ value).flatMap next₂)) ∧
    (∀ (Op V : Type) (p q : Routine Op V) (next₁ next₂ : V → Routine Op V),
      p.Equivalent q → (∀ value, (next₁ value).Equivalent (next₂ value)) →
        (p.flatMap next₁).Equivalent (q.flatMap next₂)) ∧
    (∀ (j k : Kind) (x : j.Carrier) (f : j.Carrier → Step k),
      ((pure x).flatMap f).Equivalent (f x)) ∧
    (∀ (k : Kind) (s : Step k), (s.flatMap pure).Equivalent s) ∧
    (∀ (k : Kind) (s : Step k) (answers : List Value),
      (∀ v, .finished v ∈ s.program.shows answers → (k.project? v).isSome) →
        (s.flatMap pure).program.shows answers = s.program.shows answers) ∧
    (∀ (i j k : Kind) (s : Step i) (f : i.Carrier → Step j) (g : j.Carrier → Step k),
      ((s.flatMap f).flatMap g).Equivalent (s.flatMap fun x ↦ (f x).flatMap g)) ∧
    (∀ (i j k : Kind) (s : Step i) (f : i.Carrier → j.Carrier) (g : j.Carrier → k.Carrier),
      ((s.map f).map g).Equivalent (s.map (g ∘ f))) ∧
    (∀ (i j k : Kind) (s : Step i) (f : i.Carrier → Except Fault j.Carrier)
      (g : j.Carrier → Except Fault k.Carrier),
      ((s.tryMap f).tryMap g).Equivalent (s.tryMap fun x ↦ f x >>= g)) ∧
    (∀ (i j k : Kind) (s : Step i) (t : Step j) (u : Step k),
      ((s.andThen t).andThen u).Equivalent (s.andThen (t.andThen u))) ∧
    (∀ (j k : Kind) (s t : Step j) (f g : j.Carrier → Step k),
      s.Equivalent t → (∀ x, (f x).Equivalent (g x)) →
        (s.flatMap f).Equivalent (t.flatMap g)) := by
  refine ⟨?_, ?_, ?_, ?_, ?_, ?_, ?_, ?_, ?_, ?_, ?_, ?_⟩
  · exact fun _ _ ↦ Routine.Equivalent.pure_flatMap
  · exact fun _ _ ↦ Routine.Equivalent.flatMap_pure
  · exact fun _ _ ↦ Routine.Equivalent.flatMap_flatMap
  · exact fun _ _ _ _ _ _ ↦ Routine.Equivalent.flatMap
  · exact fun _ _ ↦ Equivalent.pure_flatMap
  · exact fun _ ↦ Equivalent.flatMap_pure
  · exact fun _ _ _ ↦ shows_program_flatMap_pure_of_isSome
  · exact fun _ _ _ ↦ Equivalent.flatMap_flatMap
  · exact fun _ _ _ s f g ↦ Equivalent.tryMap_tryMap s (fun x ↦ .ok (f x)) fun y ↦ .ok (g y)
  · exact fun _ _ _ ↦ Equivalent.tryMap_tryMap
  · exact fun _ _ _ s t u ↦ Equivalent.flatMap_flatMap s (fun _ ↦ t) fun _ ↦ u
  · exact fun _ _ _ _ _ _ ↦ Equivalent.flatMap

/-- A method looked at as it is, then compared. -/
theorem flatMap_laws_getMethod :
    ((getMethod.program.flatMap .pure).flatMap .pure).Equivalent
      (getMethod.program.flatMap .pure) ∧
    (getMethod.flatMap pure).program.shows [.text "GET"] = getMethod.program.shows [.text "GET"] ∧
    (getMethod.flatMap pure).Equivalent getMethod ∧
    ((getMethod.flatMap pure).map fun method ↦ method == "GET" : Step .flag).Equivalent
      (getMethod.map fun method ↦ method == "GET") := by
  obtain ⟨-, hpureRoutine, -, hcongrRoutine, -, hpure, hexact, -, -, -, -, hcongr⟩ := flatMap_laws
  have hshows : getMethod.program.shows [.text "GET"] =
      [.asked .getMethod, .finished (.text "GET")] := by
    rw [Routine.shows_eq_play]
    rfl
  have hroutine := hpureRoutine _ _ getMethod.program
  refine ⟨hcongrRoutine _ _ _ _ _ _ hroutine fun v ↦ Routine.Equivalent.refl _,
    hexact .text getMethod [.text "GET"] ?_, hpure .text getMethod, ?_⟩
  · intro v hv
    rw [hshows] at hv
    rcases hv with _ | ⟨_, _ | ⟨_, ⟨⟩⟩⟩
    rfl
  · exact hcongr .text .flag _ _ _ _ (hpure .text getMethod) fun method ↦ Equivalent.refl _

end Step

end Turnstile
