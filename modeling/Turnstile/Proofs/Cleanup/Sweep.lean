import Turnstile.Proofs.Cleanup.Invocation

/-!
# The final sweep

The sweep goes from the newest cleaner to the oldest and invokes each of them. Those that it starts
make up its rounds: the start, what happens while the cleaner runs, and a word on the fault if it
broke off. Cleaners that were invoked by one that ran are started inside its round, and have no
round of their own.

## Rounds by their invocations

`Cleanup.Rounds` follows the recursion of the sweep and says of each round what the invocation came
to, so that a fault is told of in a round exactly if its cleaner broke off. What can be read off the
rounds without a look at the invocations is `Cleanup.Sweeps`: who was started, in which order, and
inside which rounds. The second follows from the first by one induction (`Cleanup.Rounds.sweeps`),
which puts one round in front of those of the older cleaners.

## Keeping track

At any time the history tells once of each cleaner that was registered and waits no more
(`Cleanup.Tracked`). With that, the sweep leaves nobody waiting and has started everybody once.
-/

namespace Turnstile

namespace Cleanup

variable {N : Type} {c c' c₁ : Cleanup N} {k : Nat}

/-- What the sweep does with one cleaner. -/
structure Round (N : Type) where
  /-- The cleaner. -/
  id : Nat
  /-- What happens while it runs. -/
  inside : List (Event N)
  /-- The fault it breaks off with, if it does. -/
  fault? : Option Fault

/-- All that happens in a round: a cleaner that broke off is told of once, at the end. -/
def Round.events (r : Round N) : List (Event N) :=
  .started r.id :: r.inside ++ (r.fault?.map (.failed r.id)).toList

/-- All that happens in some rounds. -/
def eventsOf (rounds : List (Round N)) : List (Event N) := rounds.flatMap Round.events

@[simp] theorem eventsOf_nil : eventsOf ([] : List (Round N)) = [] := rfl

theorem eventsOf_cons (r : Round N) (rounds : List (Round N)) :
    eventsOf (r :: rounds) = r.events ++ eventsOf rounds := List.flatMap_cons

theorem starts_events (r : Round N) : starts r.events = r.id :: starts r.inside := by
  obtain ⟨id, inside, fault?⟩ := r
  rw [Round.events]
  cases fault? with
  | none => simp [starts, Event.started?]
  | some fault => simp [starts, Event.started?]

theorem starts_eventsOf {rounds : List (Round N)} (h : ∀ r ∈ rounds, starts r.inside = []) :
    starts (eventsOf rounds) = rounds.map Round.id := by
  induction rounds with
  | nil => rfl
  | cons r rounds ih =>
    rw [eventsOf_cons, starts_append, starts_events, h r List.mem_cons_self,
      ih fun r' hr ↦ h r' (List.mem_cons_of_mem _ hr)]
    rfl

/-- The word of the sweep on how a cleaner ended: nothing if it ended well. -/
def logEnd (c : Cleanup N) (id : Nat) (fault? : Option Fault) : Cleanup N :=
  fault?.elim c fun fault ↦ c.log (.failed id fault)

section LogEnd

variable (c : Cleanup N) (id : Nat) (fault? : Option Fault)

@[simp] theorem waiting_logEnd : (c.logEnd id fault?).waiting = c.waiting := by
  cases fault? <;> rfl

@[simp] theorem size_logEnd : (c.logEnd id fault?).size = c.size := by cases fault? <;> rfl

@[simp] theorem swept_logEnd : (c.logEnd id fault?).swept = c.swept := by cases fault? <;> rfl

@[simp] theorem history_logEnd : (c.logEnd id fault?).history.toList =
    c.history.toList ++ (fault?.map (.failed id)).toList := by
  cases fault? with
  | none => exact (List.append_nil _).symm
  | some fault => exact Journal.toList_push _ _

@[simp] theorem mentioned_logEnd : (c.logEnd id fault?).Mentioned k ↔ c.Mentioned k := by
  rw [Mentioned, Mentioned, waiting_logEnd]

end LogEnd

variable {id below : Nat} {inside : List (Event N)} {fault? : Option Fault}
  {rounds : List (Round N)}

theorem StartsOnce.logEnd (h : StartsOnce c c₁ (.started id :: inside)) :
    StartsOnce c (c₁.logEnd id fault?) (Round.events ⟨id, inside, fault?⟩) := by
  intro k
  rw [starts_events, waiting_logEnd]
  exact h k

/-- The cleaners below some ordinal are swept, in rounds. -/
structure Sweeps (c c' : Cleanup N) (below : Nat) (rounds : List (Round N)) : Prop where
  /-- Nobody is registered. -/
  size : c'.size = c.size
  /-- The sweep is not begun again. -/
  swept : c'.swept = c.swept
  /-- What happened is added to the history. -/
  history : c'.history.toList = c.history.toList ++ eventsOf rounds
  /-- Whoever does not wait any more was started once, and nobody else was started. -/
  once : StartsOnce c c' (eventsOf rounds)
  /-- Nobody waits any more of those swept. -/
  done : ∀ k < below, k ∉ c'.waiting
  /-- The rounds go from the newest to the oldest. -/
  newestFirst : (rounds.map Round.id).Pairwise (· > ·)
  /-- The rounds are about those swept. -/
  bounded : ∀ r ∈ rounds, r.id < below
  /-- Inside a round somebody is started only if one that waited may invoke it. -/
  nested : ∀ r ∈ rounds, ∀ k ∈ starts r.inside, c.Mentioned k
  /-- Inside a round nothing is said of cleaners that broke off. -/
  silent : ∀ r ∈ rounds, ∀ id fault, .failed id fault ∉ r.inside
  /-- A cleaner that nobody may invoke is started after every newer one. -/
  reverse : ∀ {i j : Nat}, j < i → i < below → i ∈ c.waiting → j ∈ c.waiting → ¬ c.Mentioned j →
    List.Sublist [i, j] (starts (eventsOf rounds))

namespace Sweeps

theorem nil (c : Cleanup N) : Sweeps c c 0 [] where
  size := rfl
  swept := rfl
  history := (List.append_nil _).symm
  once _ := Nat.zero_add _
  done _ h := absurd h (Nat.not_lt_zero _)
  newestFirst := .nil
  bounded := by simp
  nested := by simp
  silent := by simp
  reverse _ h := absurd h (Nat.not_lt_zero _)

theorem skip (h : Sweeps c c' below rounds) (hid : below ∉ c.waiting) :
    Sweeps c c' (below + 1) rounds :=
  { h with
    done := by
      intro k hk hwaiting
      rcases Nat.lt_succ_iff_lt_or_eq.mp hk with hk | rfl
      · exact h.done k hk hwaiting
      · exact hid (h.once.mem_of_mem hwaiting)
    bounded := fun r hr ↦ Nat.lt_succ_of_lt (h.bounded r hr)
    reverse := by
      intro i j hji hi hiw hjw hj
      rcases Nat.lt_succ_iff_lt_or_eq.mp hi with hi | rfl
      · exact h.reverse hji hi hiw hjw hj
      · exact absurd hiw hid }

/-! The next cleaner has its round: `c₁` is where its invocation leads, and the sweep goes on from
there after its word on the fault. -/

section Cons

variable (hran : Ran (fun k ↦ k = below ∨ c.Mentioned k) c c₁ (.started below :: inside))
  (h : Sweeps (c₁.logEnd below fault?) c' below rounds)

include hran h

theorem once_cons : StartsOnce c c' (eventsOf (⟨below, inside, fault?⟩ :: rounds)) := by
  rw [eventsOf_cons]
  exact hran.once.logEnd.trans h.once

theorem done_cons : ∀ k < below + 1, k ∉ c'.waiting := by
  intro k hk hwaiting
  rcases Nat.lt_succ_iff_lt_or_eq.mp hk with hk | rfl
  · exact h.done k hk hwaiting
  · exact (once_cons hran h).not_mem_of_started
      (by rw [eventsOf_cons, starts_append, starts_events]; exact List.mem_cons_self) hwaiting

/-- A cleaner that nobody may invoke is not started in the round of a newer one, but after it. -/
theorem mem_rounds_of_not_mentioned (hinside : ∀ k ∈ starts inside, c.Mentioned k)
    (hk : k < below) (hwaiting : k ∈ c.waiting) (hnot : ¬ c.Mentioned k) :
    k ∈ c₁.waiting ∧ k ∈ starts (eventsOf rounds) := by
  have hlater : k ∈ c₁.waiting := by
    by_contra hgone
    rcases List.mem_cons.mp (hran.once.mem_starts hwaiting hgone) with rfl | hmem
    · exact Nat.lt_irrefl k hk
    · exact hnot (hinside k hmem)
  refine ⟨hlater, h.once.mem_starts ?_ (h.done k hk)⟩
  rw [waiting_logEnd]
  exact hlater

theorem reverse_cons (hinside : ∀ k ∈ starts inside, c.Mentioned k) {i j : Nat} (hji : j < i)
    (hi : i < below + 1) (hiw : i ∈ c.waiting) (hjw : j ∈ c.waiting) (hj : ¬ c.Mentioned j) :
    List.Sublist [i, j] (starts (eventsOf (⟨below, inside, fault?⟩ :: rounds))) := by
  obtain ⟨hj₁, hjrest⟩ := mem_rounds_of_not_mentioned hran h hinside (by omega) hjw hj
  rw [eventsOf_cons, starts_append, starts_events]
  -- the newer one is started in this round, or waits for a later one as well
  by_cases hi₁ : i ∈ c₁.waiting
  · have hne : i ≠ below := by
      rintro rfl
      exact hran.once.not_mem_of_started List.mem_cons_self hi₁
    refine (h.reverse hji (by omega) ?_ ?_ ?_).trans (List.sublist_append_right _ _)
    · rw [waiting_logEnd]
      exact hi₁
    · rw [waiting_logEnd]
      exact hj₁
    · rw [mentioned_logEnd]
      exact fun hm ↦ hj (hran.mentioned hm)
  · exact List.Sublist.append (List.singleton_sublist.mpr (hran.once.mem_starts hiw hi₁))
      (List.singleton_sublist.mpr hjrest)

theorem cons (hinside : ∀ k ∈ starts inside, c.Mentioned k) :
    Sweeps c c' (below + 1) (⟨below, inside, fault?⟩ :: rounds) where
  size := h.size.trans ((size_logEnd ..).trans hran.size)
  swept := h.swept.trans ((swept_logEnd ..).trans hran.swept)
  history := by
    rw [h.history, history_logEnd, hran.history, eventsOf_cons, Round.events]
    simp only [List.append_assoc, List.cons_append]
  once := once_cons hran h
  done := done_cons hran h
  newestFirst := by
    rw [List.map_cons, List.pairwise_cons]
    refine ⟨fun k hk ↦ ?_, h.newestFirst⟩
    obtain ⟨r, hr, rfl⟩ := List.mem_map.mp hk
    exact h.bounded r hr
  bounded := by
    intro r hr
    rcases List.mem_cons.mp hr with rfl | hr
    · exact Nat.lt_succ_self _
    · exact Nat.lt_succ_of_lt (h.bounded r hr)
  nested := by
    intro r hr
    rcases List.mem_cons.mp hr with rfl | hr
    · exact hinside
    · exact fun k hk ↦ hran.mentioned ((mentioned_logEnd ..).mp (h.nested r hr k hk))
  silent := by
    intro r hr
    rcases List.mem_cons.mp hr with rfl | hr
    · exact fun id fault hmem ↦ hran.silent id fault (List.mem_cons_of_mem _ hmem)
    · exact h.silent r hr
  reverse := reverse_cons hran h hinside

end Cons

end Sweeps

/-! ## Rounds by their invocations -/

/-- The cleaners below some name are swept: each of them is invoked, from the newest to the oldest,
and those that were started make up the rounds. -/
inductive Rounds : Nat → Cleanup N → List (Round N) → Cleanup N → Prop where
  /-- There are none. -/
  | nil (c : Cleanup N) : Rounds 0 c [] c
  /-- The next one is not started. -/
  | skip {below : Nat} {c c' : Cleanup N} {rounds : List (Round N)}
      (hinvoke : c.invoke below = (.ok false, c)) (rest : Rounds below c rounds c') :
      Rounds (below + 1) c rounds c'
  /-- The next one is started, and if it breaks off this is told of. -/
  | round {below : Nat} {c c₁ c' : Cleanup N} {inside : List (Event N)} {rounds : List (Round N)}
      (fault? : Option Fault) (hinvoke : c.invoke below = (fault?.elim (.ok true) .error, c₁))
      (htold : c₁.history.toList = c.history.toList ++ .started below :: inside)
      (rest : Rounds below (c₁.logEnd below fault?) rounds c') :
      Rounds (below + 1) c (⟨below, inside, fault?⟩ :: rounds) c'

theorem Rounds.sweeps (h : Rounds below c rounds c') : Sweeps c c' below rounds := by
  induction h with
  | nil c => exact .nil c
  | skip hinvoke _ ih => exact ih.skip (invoke_eq_false_iff.mp (by rw [hinvoke]))
  | @round below c c₁ c' inside rounds fault? hinvoke htold _ ih =>
    have hmem : below ∈ c.waiting := by
      by_contra hnot
      rw [invoke_of_notWaiting hnot] at hinvoke
      cases fault? <;> cases hinvoke
    obtain ⟨inside', fault?', -, hran, hinside⟩ := fire_waiting (Nat.le_refl _) hmem
    rw [← invoke, hinvoke] at hran
    -- both are what was told of the invocation
    obtain rfl : inside' = inside := by
      have htold' := hran.history
      rw [htold] at htold'
      exact (List.cons_inj_right _).mp (List.append_cancel_left htold').symm
    exact .cons hran ih hinside

/-- The sweep goes in rounds, and counts those in which the cleaner ended well. -/
theorem exists_rounds {depth : Nat} (below ran : Nat) (c : Cleanup N) (hdepth : c.pending ≤ depth) :
    ∃ rounds, Rounds below c rounds (sweepBelow depth below ran c).2 ∧
      (sweepBelow depth below ran c).1 = ran + rounds.countP (·.fault?.isNone) := by
  induction below generalizing ran c with
  | zero => exact ⟨[], .nil c, rfl⟩
  | succ below ih =>
    rw [sweepBelow, fire_eq_invoke hdepth]
    by_cases hmem : below ∈ c.waiting
    · obtain ⟨inside, fault?, hend, hran, -⟩ := fire_waiting (Nat.le_refl _) hmem
      rw [← invoke] at hend hran
      have hless := Nat.le_trans hran.pending_le hdepth
      obtain ⟨c₁, hinvoke⟩ : ∃ c₁, c.invoke below = (fault?.elim (.ok true) .error, c₁) :=
        ⟨_, Prod.ext hend rfl⟩
      rw [hinvoke] at hran hless
      rw [hinvoke]
      cases fault? with
      | none =>
        obtain ⟨rounds, hrest, hcount⟩ := ih (ran + 1) c₁ hless
        refine ⟨⟨below, inside, none⟩ :: rounds, .round none hinvoke hran.history hrest, ?_⟩
        refine hcount.trans ?_
        rw [List.countP_cons_of_pos rfl]
        omega
      | some fault =>
        obtain ⟨rounds, hrest, hcount⟩ := ih ran (c₁.log (.failed below fault)) hless
        refine ⟨⟨below, inside, some fault⟩ :: rounds,
          .round (some fault) hinvoke hran.history hrest, ?_⟩
        rw [List.countP_cons_of_neg Bool.false_ne_true]
        exact hcount
    · rw [invoke_of_notWaiting hmem]
      obtain ⟨rounds, hrest, hcount⟩ := ih ran c hdepth
      exact ⟨rounds, .skip (invoke_of_notWaiting hmem) hrest, hcount⟩

theorem exists_rounds_sweep (h : c.swept = false) :
    ∃ rounds, Rounds c.size { c with swept := true } rounds c.sweep.2 ∧
      c.sweep.1 = rounds.countP (·.fault?.isNone) := by
  obtain ⟨rounds, hrounds, hcount⟩ :=
    exists_rounds c.size 0 { c with swept := true } (Nat.le_refl _)
  have hsweep : c.sweep = sweepBelow c.pending c.size 0 { c with swept := true } := by
    rw [sweep, h]
    rfl
  rw [hsweep]
  exact ⟨rounds, hrounds, hcount.trans (Nat.zero_add _)⟩

/-! ## Keeping track -/

/-- The history tells once of each cleaner that was registered and waits no more, and of no
other. -/
structure Tracked (c : Cleanup N) : Prop where
  /-- Each cleaner was started or waits. -/
  once : ∀ k, (starts c.history.toList).count k + (if k ∈ c.waiting then 1 else 0) =
    if k < c.size then 1 else 0
  /-- Before the sweep nothing is said of cleaners that broke off. -/
  silent : c.swept = false → ∀ id fault, .failed id fault ∉ c.history.toList

namespace Tracked

theorem empty : (Cleanup.empty : Cleanup N).Tracked where
  once k := by simp [Cleanup.empty]
  silent := by simp [Cleanup.empty]

theorem register (h : c.Tracked) (action : Cleaner N) : (c.register action).Tracked where
  once k := by
    have honce := h.once k
    have hmem : k ∈ (c.register action).waiting ↔ c.size = k ∨ k ∈ c.waiting := by
      rw [Cleanup.register, Std.TreeMap.mem_insert, Nat.compare_eq_eq]
    have hsize : (c.register action).size = c.size + 1 := rfl
    change (starts c.history.toList).count k + _ = _
    rw [hsize]
    by_cases hk : c.size = k
    · subst hk
      have hnew : c.size ∉ c.waiting := fun hw ↦ Nat.lt_irrefl _ (c.lt_size hw)
      rw [if_neg hnew, if_neg (Nat.lt_irrefl _)] at honce
      rw [if_pos (hmem.mpr (.inl rfl)), if_pos (Nat.lt_succ_self _)]
      omega
    · have hlt : k < c.size + 1 ↔ k < c.size := by omega
      simp only [hmem, hk, false_or, hlt]
      exact honce
  silent := h.silent

theorem ran {allowed : Nat → Prop} {told : List (Event N)} (h : c.Tracked)
    (hran : Ran allowed c c' told) : c'.Tracked where
  once k := by
    have h₁ := h.once k
    have h₂ := hran.once k
    rw [hran.history, starts_append, List.count_append, hran.size]
    omega
  silent hswept id fault hmem := by
    rw [hran.history, List.mem_append] at hmem
    exact hmem.elim (h.silent (hran.swept ▸ hswept) id fault) (hran.silent id fault)

theorem sweeps {rounds : List (Round N)} (h : c.Tracked)
    (hsweeps : Sweeps { c with swept := true } c' c.size rounds) (k : Nat) :
    k ∉ c'.waiting ∧ (starts c'.history.toList).count k = if k < c.size then 1 else 0 := by
  have h₁ := h.once k
  have h₂ : (starts (eventsOf rounds)).count k + (if k ∈ c'.waiting then 1 else 0) =
      if k ∈ c.waiting then 1 else 0 := hsweeps.once k
  have hnone : k ∉ c'.waiting := by
    by_cases hk : k < c.size
    · exact hsweeps.done k hk
    · intro hmem
      have hold : k ∉ c.waiting := fun hw ↦ hk (c.lt_size hw)
      rw [if_pos hmem, if_neg hold] at h₂
      omega
  refine ⟨hnone, ?_⟩
  rw [if_neg hnone] at h₂
  rw [hsweeps.history, starts_append, List.count_append]
  change (starts c.history.toList).count k + _ = _
  omega

theorem mem_waiting_iff (h : c.Tracked) :
    k ∈ c.waiting ↔ k < c.size ∧ k ∉ starts c.history.toList := by
  have honce := h.once k
  constructor
  · intro hmem
    have hlt := c.lt_size hmem
    rw [if_pos hmem, if_pos hlt] at honce
    exact ⟨hlt, List.count_eq_zero.mp (by omega)⟩
  · rintro ⟨hlt, hstarts⟩
    by_contra hmem
    rw [if_neg hmem, if_pos hlt, List.count_eq_zero.mpr hstarts] at honce
    omega

/-- Where cleaners do not invoke each other, the sweep starts those that were not started before
from the newest to the oldest. -/
theorem starts_sweep {rounds : List (Round N)} (h : c.Tracked)
    (hsweeps : Sweeps { c with swept := true } c' c.size rounds) (halone : ∀ k, ¬ c.Mentioned k) :
    starts (eventsOf rounds) =
      ((List.range c.size).filter fun k ↦ k ∉ starts c.history.toList).reverse := by
  have hrounds : starts (eventsOf rounds) = rounds.map Round.id :=
    starts_eventsOf fun r hr ↦ List.eq_nil_iff_forall_not_mem.mpr fun k hk ↦
      halone k (hsweeps.nested r hr k hk)
  have hmem (k : Nat) : k ∈ starts (eventsOf rounds) ↔ k ∈ c.waiting := by
    have honce : (starts (eventsOf rounds)).count k + (if k ∈ c'.waiting then 1 else 0) =
        if k ∈ c.waiting then 1 else 0 := hsweeps.once k
    rw [if_neg (h.sweeps hsweeps k).1, Nat.add_zero] at honce
    rw [← List.count_pos_iff, honce]
    split
    next hw => exact iff_of_true Nat.one_pos hw
    next hw => exact iff_of_false (Nat.lt_irrefl 0) hw
  -- two decreasing lists with the same members are the same list
  have hdecreasing : (starts (eventsOf rounds)).Pairwise (· > ·) := hrounds ▸ hsweeps.newestFirst
  have hrange : (((List.range c.size).filter fun k ↦ k ∉ starts c.history.toList).reverse).Pairwise
      (· > ·) := by
    rw [List.pairwise_reverse]
    exact List.pairwise_lt_range.filter _
  refine List.Perm.eq_of_pairwise (fun a b _ _ h₁ h₂ ↦ absurd h₁ (Nat.lt_asymm h₂)) hdecreasing
    hrange ?_
  refine (List.perm_ext_iff_of_nodup (hdecreasing.imp Nat.ne_of_gt)
    (hrange.imp Nat.ne_of_gt)).mpr fun k ↦ ?_
  rw [hmem, h.mem_waiting_iff]
  simp

end Tracked

theorem Tracked.logFailed (h : c.Tracked) (hswept : c.swept = true) (id : Nat) (fault : Fault) :
    (c.log (.failed id fault)).Tracked where
  once k := by
    have hstarts : starts (c.log (.failed id fault)).history.toList = starts c.history.toList := by
      rw [log, Journal.toList_push, starts_append]
      exact List.append_nil _
    rw [hstarts]
    exact h.once k
  silent hnot := by
    rw [log, hswept] at hnot
    cases hnot

theorem Tracked.begin (h : c.Tracked) : ({ c with swept := true } : Cleanup N).Tracked :=
  ⟨h.once, nofun⟩

/-- What is so of the first sweep of some cleaners. -/
structure Swept (c : Cleanup N) (rounds : List (Round N)) : Prop where
  /-- Every cleaner is invoked, and those that this starts have their rounds. -/
  visits : Rounds c.size { c with swept := true } rounds c.sweep.2
  /-- They are those of the history since. -/
  history : c.sweep.2.history.toList = c.history.toList ++ eventsOf rounds
  /-- They go from the newest cleaner to the oldest. -/
  newestFirst : (rounds.map Round.id).Pairwise (· > ·)
  /-- Inside a round no cleaner is said to have broken off. -/
  silent : ∀ r ∈ rounds, ∀ id fault, .failed id fault ∉ r.inside
  /-- The sweep counts the rounds in which the cleaner ended well. -/
  count : c.sweep.1 = rounds.countP (·.fault?.isNone)
  /-- Afterwards every cleaner has been started once. -/
  once : ∀ id < c.size, (starts c.sweep.2.history.toList).count id = 1

theorem Tracked.exists_swept (h : c.Tracked) (hswept : c.swept = false) :
    ∃ rounds, c.Swept rounds := by
  obtain ⟨rounds, hrounds, hcount⟩ := exists_rounds_sweep hswept
  have hsweeps := hrounds.sweeps
  refine ⟨rounds, hrounds, hsweeps.history, hsweeps.newestFirst, hsweeps.silent, hcount,
    fun id hid ↦ ?_⟩
  rw [(h.sweeps hsweeps id).2, if_pos hid]

end Cleanup

end Turnstile
