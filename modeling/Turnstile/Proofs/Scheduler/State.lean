import Mathlib.Data.List.Permutation
import Turnstile.Scheduler

/-!
# Parts of the state of a scheduler

How the small changes of `Turnstile.Scheduler` look from outside: which request is found under an
ordinal, and what the journal says of it. A request is found under its own ordinal
(`Scheduler.Numbered`); with that, putting a request back touches no other.
-/

namespace Turnstile

namespace Scheduler

variable {σ : Type} {s : Scheduler σ} {n : Nat} {r : Request σ} {told : List Happening}
  {change : Stage → Stage} {ordinals : List Nat}

/-- What happened to the request with an ordinal. -/
def history (s : Scheduler σ) (n : Nat) : List Happening :=
  s.journal.toList.filterMap fun e ↦ if e.ordinal = n then some e.happening else none

/-- A request is found under its ordinal, and the journal speaks of requests that have arrived. -/
structure Numbered (s : Scheduler σ) : Prop where
  /-- A request is found under its ordinal. -/
  ordinal : ∀ {n : Nat} {r : Request σ}, s.requests[n]? = some r → r.ordinal = n
  /-- The journal speaks of requests that have arrived. -/
  journal : ∀ e ∈ s.journal.toList, e.ordinal < s.requests.size

/-- How many requests are at a stage of some kind. -/
def count (s : Scheduler σ) (kind : Stage → Bool) : Nat := s.requests.countP fun r ↦ kind r.stage

/-! ## Putting a request back -/

theorem put_getElem? (h : r.ordinal < s.requests.size) :
    (s.put r).requests[n]? = if r.ordinal = n then some r else s.requests[n]? := by
  rw [put]
  rw [Array.getElem?_setIfInBounds]
  split <;> rfl

@[simp] theorem size_put : (s.put r).requests.size = s.requests.size :=
  Array.size_setIfInBounds

@[simp] theorem history_put : (s.put r).history n = s.history n := rfl

theorem Numbered.put (hs : s.Numbered) (h : r.ordinal < s.requests.size) : (s.put r).Numbered where
  ordinal {n r'} hr' := by
    rw [put_getElem? h] at hr'
    split at hr'
    next hn => cases hr'; exact hn
    · exact hs.ordinal hr'
  journal e he := by rw [size_put]; exact hs.journal e he

theorem lt_size (h : s.requests[n]? = some r) : n < s.requests.size := by
  by_contra hn
  rw [Array.getElem?_eq_none (by omega)] at h
  cases h

theorem Numbered.getElem?_put {k : Nat} {r₀ : Request σ} (hs : s.Numbered)
    (hk : s.requests[k]? = some r₀) (ho : r.ordinal = r₀.ordinal) :
    (s.put r).requests[n]? = if k = n then some r else s.requests[n]? := by
  have hordinal : r.ordinal = k := ho.trans (hs.ordinal hk)
  rw [put_getElem? (hordinal ▸ lt_size hk), hordinal]

theorem count_put {r₀ : Request σ} (h : s.requests[r.ordinal]? = some r₀)
    (kind : Stage → Bool) :
    (s.put r).count kind + (if kind r₀.stage then 1 else 0) =
      s.count kind + (if kind r.stage then 1 else 0) := by
  have hlt := lt_size h
  have hget : s.requests[r.ordinal] = r₀ := by
    rw [Array.getElem?_eq_getElem hlt] at h
    exact Option.some.inj h
  have hle : (if kind r₀.stage then 1 else 0) ≤ s.count kind := by
    split
    next hk =>
      rw [count]
      exact Array.countP_pos_iff.mpr ⟨r₀, hget ▸ Array.getElem_mem hlt, hk⟩
    · exact Nat.zero_le _
  rw [put, count, Array.setIfInBounds, dif_pos hlt, Array.countP_set, hget]
  rw [count] at hle ⊢
  omega

/-! ## Writing into the journal -/

theorem absorb_journal :
    (s.absorb (r, told)).journal.toList =
      s.journal.toList ++ told.map fun h ↦ Entry.mk r.ordinal h := by
  rw [absorb, record]
  simp only [Journal.toList_append]
  rfl

theorem history_absorb :
    (s.absorb (r, told)).history n = s.history n ++ if r.ordinal = n then told else [] := by
  rw [history, absorb_journal, List.filterMap_append, ← history, List.filterMap_map]
  congr 1
  split
  next h => simp [h]
  next h => simp [h]

theorem Numbered.absorb (hs : s.Numbered) (h : r.ordinal < s.requests.size) :
    (s.absorb (r, told)).Numbered where
  ordinal := (hs.put h).ordinal
  journal e he := by
    rw [absorb_journal, List.mem_append] at he
    rcases he with he | he
    · exact (hs.put h).journal e he
    · obtain ⟨_, -, rfl⟩ := List.mem_map.mp he
      exact size_put.symm ▸ h

theorem Numbered.history_eq_nil (hs : s.Numbered) (h : s.requests.size ≤ n) :
    s.history n = [] := by
  rw [history, List.filterMap_eq_nil_iff]
  intro e he
  have := hs.journal e he
  rw [if_neg (by omega)]

theorem Numbered.history_size (hs : s.Numbered) : s.history s.requests.size = [] :=
  hs.history_eq_nil (Nat.le_refl _)

/-! ## Changing stages -/

theorem restage_frame :
    s.restage change n = { s with requests := (s.restage change n).requests } := by
  unfold restage
  split <;> rfl

@[simp] theorem size_restage : (s.restage change n).requests.size = s.requests.size := by
  unfold restage
  split
  · exact size_put
  · rfl

theorem restage_getElem? (hs : s.Numbered) (n k : Nat) :
    (s.restage change n).requests[k]? =
      s.requests[k]?.map fun r ↦ if k = n then { r with stage := change r.stage } else r := by
  unfold restage
  split
  next r h =>
    rw [put_getElem? (by exact hs.ordinal h ▸ lt_size h)]
    simp only [hs.ordinal h]
    by_cases hk : n = k
    · subst hk; simp [h, hs.ordinal h]
    · simp [hk, Ne.symm hk]
  next h =>
    by_cases hk : k = n
    · subst hk; simp [h]
    · simp [hk]

theorem Numbered.restage (hs : s.Numbered) (n : Nat) : (s.restage change n).Numbered := by
  unfold Scheduler.restage
  split
  next r h => exact hs.put (by exact hs.ordinal h ▸ lt_size h)
  · exact hs

@[simp] theorem restageAll_nil : s.restageAll change [] = s := rfl

@[simp] theorem restageAll_cons :
    s.restageAll change (n :: ordinals) = (s.restage change n).restageAll change ordinals := rfl

theorem restageAll_frame :
    s.restageAll change ordinals =
      { s with requests := (s.restageAll change ordinals).requests } := by
  induction ordinals generalizing s with
  | nil => rfl
  | cons n ordinals ih =>
    have hrest := @ih (s.restage change n)
    have hn := congrArg (fun t ↦ { t with
      requests := ((s.restage change n).restageAll change ordinals).requests })
      (@restage_frame σ s n change)
    exact hrest.trans hn

@[simp] theorem restageAll_pool : (s.restageAll change ordinals).pool = s.pool := by
  rw [restageAll_frame]

@[simp] theorem restageAll_jobs : (s.restageAll change ordinals).jobs = s.jobs := by
  rw [restageAll_frame]

@[simp] theorem restageAll_draining : (s.restageAll change ordinals).draining = s.draining := by
  rw [restageAll_frame]

@[simp] theorem size_restageAll :
    (s.restageAll change ordinals).requests.size = s.requests.size := by
  induction ordinals generalizing s with
  | nil => rfl
  | cons n ordinals ih => rw [restageAll_cons, ih, size_restage]

theorem Numbered.restageAll (hs : s.Numbered) (ordinals : List Nat) :
    (s.restageAll change ordinals).Numbered := by
  induction ordinals generalizing s with
  | nil => exact hs
  | cons n ordinals ih => exact ih (hs.restage n)

/-- A change that is the same made twice reaches each request named, once or more often. -/
theorem restageAll_getElem? (hs : s.Numbered)
    (idem : ∀ stage, change (change stage) = change stage) (ordinals : List Nat) (k : Nat) :
    (s.restageAll change ordinals).requests[k]? =
      s.requests[k]?.map fun r ↦
        if k ∈ ordinals then { r with stage := change r.stage } else r := by
  induction ordinals generalizing s with
  | nil => simp
  | cons n ordinals ih =>
    rw [restageAll_cons, ih (hs.restage n), restage_getElem? hs, Option.map_map]
    congr 1
    funext r
    by_cases hn : k = n <;> by_cases hk : k ∈ ordinals <;> simp [hn, hk, idem]

end Scheduler

end Turnstile
