import Turnstile.Proofs.Cleanup.Ran

/-!
# Invocations

An invocation starts the cleaner, if it waits, and follows its script, and each cleaner that the
script invokes is invoked in the same way. The depth that `Cleanup.fire` is given is no part of
this: a cleaner that runs waits no longer, so a depth of as many cleaners as wait is never used up,
and a greater one changes nothing (`Cleanup.fire_congr`). So an invocation is what the script of the
cleaner comes to (`Cleanup.invoke_of_start`), with no word on depths, whatever cleaners invoke each
other or themselves.

## Moments

A script that is followed can be looked at between any two of its steps, there or inside whatever it
invokes (`Cleanup.Within`). Between two such moments cleaners ran and nothing else happened
(`Cleanup.Within.exists_ran`), so whatever survives running cleaners is so at every moment.
-/

namespace Turnstile

namespace Cleanup

variable {N : Type} {c c' c₁ : Cleanup N} {id : Nat} {action : Cleaner N}

/-! ## The depth -/

theorem start_eq_some_iff :
    c.start id = (some action, c₁) ↔
      c.waiting[id]? = some action ∧ c₁ = (c.without id).log (.started id) := by
  cases h : c.waiting[id]? with
  | none => simp [start_eq_none h]
  | some action' => simp [start_eq_some h, eq_comm]

theorem mem_of_start (h : c.start id = (some action, c₁)) : id ∈ c.waiting :=
  Std.TreeMap.isSome_getElem?_iff_mem.mp (by rw [(start_eq_some_iff.mp h).1]; rfl)

theorem exists_start (h : id ∈ c.waiting) :
    ∃ action, c.start id = (some action, (c.without id).log (.started id)) :=
  have ⟨action, haction⟩ := Option.isSome_iff_exists.mp (Std.TreeMap.isSome_getElem?_iff_mem.mpr h)
  ⟨action, start_eq_some haction⟩

theorem pending_start (h : c.start id = (some action, c₁)) : c₁.pending + 1 = c.pending := by
  have hmem := mem_of_start h
  obtain ⟨-, rfl⟩ := start_eq_some_iff.mp h
  have hpos : c.waiting.size ≠ 0 := fun hzero ↦
    Std.TreeMap.not_mem_of_isEmpty (by rw [Std.TreeMap.isEmpty_eq_size_eq_zero, hzero]; rfl) hmem
  rw [pending, pending, log, without, Std.TreeMap.size_erase,
    if_pos (Std.TreeMap.contains_iff_mem.mpr hmem)]
  omega

/-- A script does the same with two ways to start a cleaner that agree while no more than `n`
cleaners wait. -/
theorem perform_congr {f g : Nat → Cleanup N → Except Fault Bool × Cleanup N} {n : Nat}
    (hagree : ∀ id c, c.pending ≤ n → f id c = g id c)
    (hless : ∀ id c, (f id c).2.pending ≤ c.pending) (script : Cleaner N) (c : Cleanup N)
    (hbound : c.pending ≤ n) : perform f script c = perform g script c := by
  induction script generalizing c with
  | done | fail => rfl
  | note n next ih => exact ih (c.log (.note n)) hbound
  | invoke id next ih =>
    have hrest := Nat.le_trans (hless id c) hbound
    rw [perform, perform, ← hagree id c hbound]
    split
    next started c₁ h =>
      rw [h] at hrest
      exact ih started c₁ hrest
    next => rfl

theorem pending_fire (depth id : Nat) (c : Cleanup N) : (fire depth id c).2.pending ≤ c.pending :=
  have ⟨_, h⟩ := ran_fire depth id c
  h.pending_le

/-- A depth of as many cleaners as wait is never used up: any two of that size do the same. -/
theorem fire_congr {depth depth' : Nat} (h : c.pending ≤ depth) (h' : c.pending ≤ depth') :
    fire depth id c = fire depth' id c := by
  induction depth generalizing depth' id c with
  | zero =>
    have hnone : id ∉ c.waiting := fun hmem ↦ by
      obtain ⟨action, haction⟩ := exists_start hmem
      have := pending_start haction
      omega
    rw [fire_notWaiting _ hnone, fire_notWaiting _ hnone]
  | succ depth ih =>
    by_cases hmem : id ∈ c.waiting
    · obtain ⟨action, hstart⟩ := exists_start hmem
      have hless := pending_start hstart
      obtain ⟨depth', rfl⟩ : ∃ d, depth' = d + 1 := ⟨depth' - 1, by omega⟩
      have hsame := perform_congr (f := fire depth) (g := fire depth') (n := min depth depth')
        (fun id c hc ↦ ih (by omega) (by omega)) (pending_fire depth) action
        ((c.without id).log (.started id)) (by omega)
      rw [fire, fire, hstart]
      dsimp only
      rw [hsame]
    · rw [fire_notWaiting _ hmem, fire_notWaiting _ hmem]

theorem fire_eq_invoke {depth : Nat} (h : c.pending ≤ depth) : fire depth id c = c.invoke id :=
  fire_congr h (Nat.le_refl _)

/-! ## The equation -/

/-- Run what is left of a cleaner; each cleaner that it invokes is invoked as from outside. -/
def follow (c : Cleanup N) (script : Cleaner N) : Except Fault Unit × Cleanup N :=
  perform (fun id c ↦ c.invoke id) script c

theorem invoke_of_start (h : c.start id = (some action, c₁)) :
    c.invoke id = ((c₁.follow action).1.map fun _ ↦ true, (c₁.follow action).2) := by
  have hless := pending_start h
  obtain ⟨depth, hdepth⟩ : ∃ d, c.pending = d + 1 := ⟨c₁.pending, hless.symm⟩
  have hfollow : perform (fire depth) action c₁ = c₁.follow action :=
    perform_congr (n := depth) (fun id c ↦ fire_eq_invoke) (pending_fire depth) action c₁ (by omega)
  rw [invoke, hdepth, fire, h]
  dsimp only
  rw [hfollow]
  cases c₁.follow action with
  | mk result c₂ => cases result <;> rfl

theorem invoke_of_notWaiting (h : id ∉ c.waiting) : c.invoke id = (.ok false, c) :=
  fire_notWaiting _ h

/-! ## Inside a script -/

/-- The state `c'` comes up while a script is followed from another, there or inside a cleaner that
was invoked. -/
inductive Within : Cleaner N → Cleanup N → Cleanup N → Prop where
  /-- Before the script goes on. -/
  | now (script : Cleaner N) (c : Cleanup N) : Within script c c
  /-- After a note. -/
  | note (n : N) {next : Cleaner N} {c c' : Cleanup N} (h : Within next (c.log (.note n)) c') :
      Within (.note n next) c c'
  /-- Inside the cleaner that is invoked. -/
  | inside {id : Nat} (next : Bool → Cleaner N) {action : Cleaner N} {c c₁ c' : Cleanup N}
      (hstart : c.start id = (some action, c₁)) (h : Within action c₁ c') :
      Within (.invoke id next) c c'
  /-- After it. -/
  | after {id : Nat} (next : Bool → Cleaner N) {started : Bool} {c c₁ c' : Cleanup N}
      (hinvoke : c.invoke id = (.ok started, c₁)) (h : Within (next started) c₁ c') :
      Within (.invoke id next) c c'

theorem invoke_eq_false_iff : (c.invoke id).1 = .ok false ↔ id ∉ c.waiting := by
  refine ⟨fun h hmem ↦ ?_, fun h ↦ by rw [invoke_of_notWaiting h]⟩
  obtain ⟨inside, fault?, hend, -⟩ := fire_waiting (Nat.le_refl _) hmem
  rw [invoke, hend] at h
  cases fault? <;> cases h

theorem exists_ran_invoke {result : Except Fault Bool} (h : c.invoke id = (result, c₁)) :
    ∃ told, Ran (fun _ ↦ True) c c₁ told := by
  obtain ⟨told, hran⟩ := ran_fire c.pending id c
  rw [← invoke, h] at hran
  exact ⟨told, hran.mono fun _ _ ↦ trivial⟩

theorem exists_ran_start (h : c.start id = (some action, c₁)) :
    ∃ told, Ran (fun _ ↦ True) c c₁ told := by
  obtain ⟨-, rfl⟩ := start_eq_some_iff.mp h
  exact ⟨_, (ran_start c (mem_of_start h)).mono fun _ _ ↦ trivial⟩

theorem Within.exists_ran {script : Cleaner N} (h : Within script c c') :
    ∃ told, Ran (fun _ ↦ True) c c' told := by
  induction h with
  | now script c => exact ⟨[], .refl _ c⟩
  | note n _ ih =>
    obtain ⟨told, hrest⟩ := ih
    exact ⟨_, (ran_note _ _ n).trans hrest⟩
  | inside next hstart _ ih =>
    obtain ⟨first, hfirst⟩ := exists_ran_start hstart
    obtain ⟨told, hrest⟩ := ih
    exact ⟨_, hfirst.trans hrest⟩
  | after next hinvoke _ ih =>
    obtain ⟨first, hfirst⟩ := exists_ran_invoke hinvoke
    obtain ⟨told, hrest⟩ := ih
    exact ⟨_, hfirst.trans hrest⟩

end Cleanup

end Turnstile
