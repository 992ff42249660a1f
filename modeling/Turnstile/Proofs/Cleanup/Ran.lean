import Mathlib.Data.List.Count
import Turnstile.Cleanup

/-!
# Running cleaners

What happens while a cleaner runs, with all the cleaners that it invokes and those that these
invoke. Whatever the scripts do, a cleaner that is started waits no more and is told of once, those
that were not started wait with the scripts that they had, and only the sweep speaks of cleaners
that broke off. `Cleanup.Ran` says this of two states and of what happened between them.

## Counting the starts

The heart of it is one equation for each cleaner (`Cleanup.StartsOnce`): how often it was started in
between, and one more if it waits in the end, is one if it waited at first and nothing otherwise.
Equations of two stretches add up, so that `Cleanup.Ran` goes through one after the other and holds
of `Cleanup.perform` and `Cleanup.fire` by induction on the script and on the depth. That nobody is
started twice, and who was started, are read off the sum.
-/

namespace Turnstile

namespace Cleaner

variable {N : Type}

/-- What is left of the cleaner may invoke the cleaner `k`. -/
def Mentions (k : Nat) : Cleaner N → Prop
  | .done => False
  | .note _ next => next.Mentions k
  | .fail _ => False
  | .invoke id next => id = k ∨ ∃ started, (next started).Mentions k

end Cleaner

namespace Cleanup

variable {N : Type} {c c' c₁ c₂ : Cleanup N} {id k : Nat} {told told₁ told₂ : List (Event N)}
  {allowed allowed' : Nat → Prop}

/-- The cleaner that an event is the start of. -/
def Event.started? : Event N → Option Nat
  | .started id => some id
  | _ => none

/-- The cleaners started by some events, in order. -/
def starts (events : List (Event N)) : List Nat := events.filterMap Event.started?

@[simp] theorem starts_nil : starts ([] : List (Event N)) = [] := rfl

@[simp] theorem starts_append (events more : List (Event N)) :
    starts (events ++ more) = starts events ++ starts more := List.filterMap_append

/-- A cleaner that waits may invoke the cleaner `k`. -/
def Mentioned (c : Cleanup N) (k : Nat) : Prop :=
  ∃ (id : Nat) (action : Cleaner N), c.waiting[id]? = some action ∧ action.Mentions k

/-- Whoever does not wait any more was started once, and nobody else was started. -/
def StartsOnce (c c' : Cleanup N) (told : List (Event N)) : Prop :=
  ∀ k, (starts told).count k + (if k ∈ c'.waiting then 1 else 0) = if k ∈ c.waiting then 1 else 0

namespace StartsOnce

theorem trans (h₁ : StartsOnce c c₁ told₁) (h₂ : StartsOnce c₁ c₂ told₂) :
    StartsOnce c c₂ (told₁ ++ told₂) := by
  intro k
  have := h₁ k
  have := h₂ k
  rw [starts_append, List.count_append]
  omega

theorem mem_of_mem (h : StartsOnce c c' told) (hk : k ∈ c'.waiting) : k ∈ c.waiting := by
  by_contra hnot
  have := h k
  rw [if_pos hk, if_neg hnot] at this
  omega

theorem not_mem_of_started (h : StartsOnce c c' told) (hk : k ∈ starts told) :
    k ∉ c'.waiting := by
  intro hwaiting
  have hcount := h k
  have hpos := List.count_pos_iff.mpr hk
  rw [if_pos hwaiting, if_pos (h.mem_of_mem hwaiting)] at hcount
  omega

theorem mem_starts (h : StartsOnce c c' told) (hk : k ∈ c.waiting) (hnot : k ∉ c'.waiting) :
    k ∈ starts told := by
  have hcount := h k
  rw [if_pos hk, if_neg hnot] at hcount
  exact List.count_pos_iff.mp (by omega)

end StartsOnce

/-- Cleaners ran between two states, and no others started than those allowed. -/
structure Ran (allowed : Nat → Prop) (c c' : Cleanup N) (told : List (Event N)) : Prop where
  /-- Nobody is registered. -/
  size : c'.size = c.size
  /-- The final sweep does not begin. -/
  swept : c'.swept = c.swept
  /-- What happened is added to the history. -/
  history : c'.history.toList = c.history.toList ++ told
  /-- Whoever still waits waited with the same script. -/
  waiting : ∀ {k : Nat} {action : Cleaner N}, c'.waiting[k]? = some action →
    c.waiting[k]? = some action
  /-- Whoever does not wait any more was started once, and nobody else was started. -/
  once : StartsOnce c c' told
  /-- Nobody was started who is not allowed. -/
  allowed : ∀ k ∈ starts told, allowed k
  /-- Nothing is said of cleaners that broke off. -/
  silent : ∀ id fault, .failed id fault ∉ told

namespace Ran

theorem refl (allowed : Nat → Prop) (c : Cleanup N) : Ran allowed c c [] where
  size := rfl
  swept := rfl
  history := (List.append_nil _).symm
  waiting := id
  once _ := Nat.zero_add _
  allowed := by simp
  silent := by simp

theorem trans (h₁ : Ran allowed c c₁ told₁) (h₂ : Ran allowed c₁ c₂ told₂) :
    Ran allowed c c₂ (told₁ ++ told₂) where
  size := h₂.size.trans h₁.size
  swept := h₂.swept.trans h₁.swept
  history := by rw [h₂.history, h₁.history, List.append_assoc]
  waiting h := h₁.waiting (h₂.waiting h)
  once := h₁.once.trans h₂.once
  allowed k hk := by
    rw [starts_append, List.mem_append] at hk
    exact hk.elim (h₁.allowed k) (h₂.allowed k)
  silent id fault h := (List.mem_append.mp h).elim (h₁.silent id fault) (h₂.silent id fault)

theorem mono (h : Ran allowed c c' told) (hallowed : ∀ k, allowed k → allowed' k) :
    Ran allowed' c c' told :=
  { h with allowed := fun k hk ↦ hallowed k (h.allowed k hk) }

theorem mentioned (h : Ran allowed c c' told) (hk : c'.Mentioned k) : c.Mentioned k := by
  obtain ⟨id, action, hwaiting, haction⟩ := hk
  exact ⟨id, action, h.waiting hwaiting, haction⟩

theorem pending_le (h : Ran allowed c c' told) : c'.pending ≤ c.pending := by
  have hsub : c'.waiting.keys.Subset c.waiting.keys := fun k hk ↦
    Std.TreeMap.mem_keys.mpr (h.once.mem_of_mem (Std.TreeMap.mem_keys.mp hk))
  have hnodup : c'.waiting.keys.Nodup := Std.TreeMap.nodup_keys
  rw [pending, pending, ← Std.TreeMap.length_keys, ← Std.TreeMap.length_keys]
  exact (List.subperm_of_subset hnodup hsub).length_le

end Ran

theorem ran_note (allowed : Nat → Prop) (c : Cleanup N) (n : N) :
    Ran allowed c (c.log (.note n)) [.note n] where
  size := rfl
  swept := rfl
  history := Journal.toList_push _ _
  waiting := id
  once _ := Nat.zero_add _
  allowed := by simp [starts, Event.started?]
  silent := by simp

theorem start_eq_some {action : Cleaner N} (h : c.waiting[id]? = some action) :
    c.start id = (some action, (c.without id).log (.started id)) := by
  rw [start, h]

theorem start_eq_none (h : c.waiting[id]? = none) : c.start id = (none, c) := by
  rw [start, h]

theorem ran_start (c : Cleanup N) (h : id ∈ c.waiting) :
    Ran (· = id) c ((c.without id).log (.started id)) [.started id] where
  size := rfl
  swept := rfl
  history := Journal.toList_push _ _
  waiting {k action} hk := by
    rw [log, without, Std.TreeMap.getElem?_erase] at hk
    split at hk
    · cases hk
    · exact hk
  once k := by
    have hmem : k ∈ ((c.without id).log (.started id)).waiting ↔ id ≠ k ∧ k ∈ c.waiting := by
      rw [log, without, Std.TreeMap.mem_erase, ne_eq, Nat.compare_eq_eq]
    have hstarts : starts [(.started id : Event N)] = [id] := rfl
    rw [hstarts, List.count_singleton]
    by_cases hk : id = k
    · subst hk
      simp [hmem, h]
    · simp [hmem, hk]
  allowed := by simp [starts, Event.started?]
  silent := by simp

/-! ## Scripts -/

section Perform

variable {fire : Nat → Cleanup N → Except Fault Bool × Cleanup N}

/-- What a script does, if starting a cleaner does no more than it may: the induction is on the
script, and `fire` is what starting a cleaner does at the depth below. -/
theorem ran_perform
    (hfire : ∀ id c, ∃ told, Ran (fun k ↦ k = id ∨ c.Mentioned k) c (fire id c).2 told)
    (script : Cleaner N) (c : Cleanup N) :
    ∃ told, Ran (fun k ↦ script.Mentions k ∨ c.Mentioned k) c (perform fire script c).2 told := by
  induction script generalizing c with
  | done => exact ⟨[], .refl _ c⟩
  | note n next ih =>
    obtain ⟨told, hrest⟩ := ih (c.log (.note n))
    exact ⟨_, (ran_note _ c n).trans hrest⟩
  | fail fault => exact ⟨[], .refl _ c⟩
  | invoke id next ih =>
    obtain ⟨told, hfired⟩ := hfire id c
    -- the nested cleaner may start what the script mentions or what anybody who waits mentions
    have hnested : Ran (fun k ↦ (Cleaner.invoke id next).Mentions k ∨ c.Mentioned k) c
        (fire id c).2 told :=
      hfired.mono fun k hk ↦ hk.imp_left fun h ↦ .inl h.symm
    rw [perform]
    split
    next started c' h =>
      rw [h] at hfired hnested
      obtain ⟨more, hrest⟩ := ih started c'
      refine ⟨told ++ more, hnested.trans (hrest.mono fun k hk ↦ ?_)⟩
      exact hk.imp (fun h ↦ .inr ⟨started, h⟩) hfired.mentioned
    next fault c' h =>
      rw [h] at hnested
      exact ⟨told, hnested⟩

end Perform

/-! ## Starting a cleaner -/

/-- What starting a cleaner does: it and those that it or somebody who waits may invoke are
started. -/
theorem ran_fire (depth id : Nat) (c : Cleanup N) :
    ∃ told, Ran (fun k ↦ k = id ∨ c.Mentioned k) c (fire depth id c).2 told := by
  induction depth generalizing id c with
  | zero => exact ⟨[], .refl _ c⟩
  | succ depth ih =>
    rw [fire]
    cases h : c.waiting[id]? with
    | none =>
      rw [start_eq_none h]
      exact ⟨[], .refl _ c⟩
    | some action =>
      rw [start_eq_some h]
      have hmem : id ∈ c.waiting := Std.TreeMap.isSome_getElem?_iff_mem.mp (by rw [h]; rfl)
      have hstart := ran_start c hmem
      obtain ⟨told, hrest⟩ := ran_perform ih action ((c.without id).log (.started id))
      -- what the action mentions is mentioned by somebody who waited: the cleaner itself
      have hall := (hstart.mono fun k hk ↦ Or.inl hk).trans (hrest.mono fun k hk ↦
        Or.inr (hk.elim (fun hk ↦ ⟨id, action, h, hk⟩) hstart.mentioned))
      dsimp only
      split
      next c' hperform =>
        rw [hperform] at hall
        exact ⟨_, hall⟩
      next fault c' hperform =>
        rw [hperform] at hall
        exact ⟨_, hall⟩

theorem fire_notWaiting (depth : Nat) (h : id ∉ c.waiting) : fire depth id c = (.ok false, c) := by
  cases depth with
  | zero => rfl
  | succ depth =>
    rw [fire, start_eq_none (Std.TreeMap.getElem?_eq_none h)]

theorem fire_waiting {depth : Nat} (hdepth : c.pending ≤ depth) (h : id ∈ c.waiting) :
    ∃ (inside : List (Event N)) (fault? : Option Fault),
      (fire depth id c).1 = fault?.elim (.ok true) .error ∧
      Ran (fun k ↦ k = id ∨ c.Mentioned k) c (fire depth id c).2 (.started id :: inside) ∧
      ∀ k ∈ starts inside, c.Mentioned k := by
  obtain ⟨action, haction⟩ := Option.isSome_iff_exists.mp
    (Std.TreeMap.isSome_getElem?_iff_mem.mpr h)
  obtain ⟨depth, rfl⟩ : ∃ d, depth = d + 1 := by
    refine Nat.exists_eq_succ_of_ne_zero ?_
    -- the depth is not zero, since somebody waits
    have hpos : c.waiting.size ≠ 0 := by
      intro hzero
      have hempty : c.waiting.isEmpty = true := by
        rw [Std.TreeMap.isEmpty_eq_size_eq_zero, hzero]
        rfl
      exact Std.TreeMap.not_mem_of_isEmpty hempty h
    rw [pending] at hdepth
    omega
  have hstart := ran_start c h
  obtain ⟨told, hrest⟩ := ran_perform (ran_fire depth) action ((c.without id).log (.started id))
  have hmentioned (k : Nat) (hk : action.Mentions k ∨
      ((c.without id).log (.started id)).Mentioned k) : c.Mentioned k :=
    hk.elim (fun hk ↦ ⟨id, action, haction, hk⟩) hstart.mentioned
  have hall := (hstart.mono fun k hk ↦ Or.inl hk).trans
    (hrest.mono fun k hk ↦ Or.inr (hmentioned k hk))
  have hinside (k : Nat) (hk : k ∈ starts told) : c.Mentioned k := hmentioned k (hrest.allowed k hk)
  rw [fire, start_eq_some haction]
  dsimp only
  split
  next c' hperform =>
    rw [hperform] at hall
    exact ⟨told, none, rfl, hall, hinside⟩
  next fault c' hperform =>
    rw [hperform] at hall
    exact ⟨told, some fault, rfl, hall, hinside⟩

end Cleanup

end Turnstile
