import Mathlib.Data.List.Forall2
import Mathlib.Data.List.Nodup
import Turnstile.Metadata

/-!
# Look-up by name

The names that are listed and the values that are found under them divide up the pairs: every pair
is found under exactly one of the listed names, and nothing is found twice. The list of the names
and the look-up are two passes over the pairs that never see each other's result; they fit together
because both compare names by one key.

## Names regardless of case

Header names are compared regardless of the case of ASCII letters. What that means is said here
without a lower-case form (`Text.EqIgnoringCase`), and the key is shown to decide it.
-/

namespace Turnstile

/-! ## The case of letters -/

namespace Text

/-- The same character, or the capital and the small form of one ASCII letter: the small form comes
32 places after the capital. -/
def SameLetter (c d : Char) : Prop :=
  c = d ∨ (c.isUpper ∧ d.toNat = c.toNat + 32) ∨ (d.isUpper ∧ c.toNat = d.toNat + 32)

/-- The two texts differ in the case of ASCII letters at most. -/
def EqIgnoringCase (s t : String) : Prop := List.Forall₂ SameLetter s.toList t.toList

theorem isUpper_iff (c : Char) : c.isUpper ↔ 65 ≤ c.toNat ∧ c.toNat ≤ 90 := by
  change decide (c.val ≥ 65 ∧ c.val ≤ 90) ↔ _
  rw [decide_eq_true_iff, ge_iff_le, UInt32.le_iff_toNat_le, UInt32.le_iff_toNat_le]
  exact Iff.rfl

theorem toNat_toLower (c : Char) :
    c.toLower.toNat = if c.isUpper then c.toNat + 32 else c.toNat := by
  by_cases hupper : c.isUpper
  · have hbound := (isUpper_iff c).mp hupper
    have hlower : c.toLower.val = c.val + 32 :=
      congrArg Char.val (dif_pos (of_decide_eq_true hupper))
    rw [if_pos hupper]
    change c.toLower.val.toNat = c.val.toNat + 32
    rw [hlower]
    exact (UInt32.toNat_add ..).trans (Nat.mod_eq_of_lt (by change c.toNat + 32 < 2 ^ 32; omega))
  · have hlower : c.toLower = c := dif_neg fun h ↦ hupper (decide_eq_true h)
    rw [if_neg hupper, hlower]

theorem toLower_eq_iff (c d : Char) : c.toLower = d.toLower ↔ SameLetter c d := by
  rw [SameLetter, ← Char.toNat_inj, ← Char.toNat_inj, toNat_toLower, toNat_toLower]
  simp only [isUpper_iff]
  split <;> split <;> omega

theorem lower_eq_iff (s t : String) : lower s = lower t ↔ EqIgnoringCase s t := by
  rw [lower, lower, String.ofList_inj, ← List.forall₂_eq_eq_eq, List.forall₂_map_left_iff,
    List.forall₂_map_right_iff]
  simp only [toLower_eq_iff, EqIgnoringCase]

instance : DecidableRel EqIgnoringCase := fun s t ↦ decidable_of_iff _ (lower_eq_iff s t)

end Text

/-! ## Dividing up -/

namespace Pairs

section

variable (same : String → String → Prop) [DecidableRel same]

/-- At place `i` the name is new: no pair before has a name that is the same. -/
def NewAt (pairs : Pairs) (name : String) (i : Nat) : Prop :=
  ∀ earlier ∈ pairs.take i, ¬same earlier.1 name

instance (pairs : Pairs) (name : String) (i : Nat) : Decidable (NewAt same pairs name i) :=
  inferInstanceAs (Decidable (∀ earlier ∈ pairs.take i, ¬same earlier.1 name))

/-- The names and the values found under them divide up the pairs by their names, where `same` says
which names are the same. -/
structure DividedBy (pairs : Pairs) (names : List String) (values : String → List String) :
    Prop where
  /-- No two of the names are the same. -/
  distinct : names.Pairwise fun n m ↦ ¬same n m
  /-- They are the names that were new when they came, in the order and the spelling in which they
  came. -/
  first : names =
    (pairs.zipIdx.filter fun (pair, i) ↦ NewAt same pairs pair.1 i).map fun (pair, _) ↦ pair.1
  /-- Under a name the values of the pairs are found that have this name, in order of arrival. -/
  found (n : String) : values n = (pairs.filter fun pair ↦ same pair.1 n).map Prod.snd
  /-- Every pair is found under exactly one of the names. -/
  once : ∀ pair ∈ pairs, ∃! n, n ∈ names ∧ same pair.1 n
  /-- Under all the names together every value is found as often as it arrived. -/
  all : (names.flatMap values).Perm (pairs.map Prod.snd)
  /-- Under names that are the same, the same is found. -/
  congr {n m : String} : same n m → values n = values m

end

variable {key : String → String} {seen : Std.TreeSet String} {n : String}

theorem mem_insert_key {k k' : String} : k ∈ seen.insert k' ↔ k' = k ∨ k ∈ seen := by
  rw [Std.TreeSet.mem_insert, Std.LawfulEqCmp.compare_eq_iff_eq]

theorem key_notMem_of_mem {pairs : Pairs} (h : n ∈ namesBeyond key seen pairs) : key n ∉ seen := by
  fun_induction namesBeyond key seen pairs with
  | case1 => cases h
  | case2 seen name _ pairs _ ih => exact ih h
  | case3 seen name _ pairs hseen ih =>
    rcases List.mem_cons.mp h with rfl | h
    · exact hseen
    · exact fun hmem ↦ ih h (mem_insert_key.mpr (.inr hmem))

theorem pairwise_namesBeyond (key : String → String) (seen : Std.TreeSet String) (pairs : Pairs) :
    (namesBeyond key seen pairs).Pairwise fun n m ↦ key n ≠ key m := by
  fun_induction namesBeyond key seen pairs with
  | case1 => exact .nil
  | case2 seen name _ pairs _ ih => exact ih
  | case3 seen name _ pairs hseen ih =>
    refine .cons (fun m hm heq ↦ ?_) ih
    exact key_notMem_of_mem hm (mem_insert_key.mpr (.inl heq))

theorem exists_mem_namesBeyond {pairs : Pairs} {pair : String × String} (h : pair ∈ pairs)
    (hseen : key pair.1 ∉ seen) : ∃ n ∈ namesBeyond key seen pairs, key n = key pair.1 := by
  fun_induction namesBeyond key seen pairs with
  | case1 => cases h
  | case2 seen name value pairs hname ih =>
    rcases List.mem_cons.mp h with rfl | h
    · exact absurd hname hseen
    · exact ih h hseen
  | case3 seen name value pairs hname ih =>
    by_cases heq : key name = key pair.1
    · exact ⟨name, List.mem_cons_self, heq⟩
    · have hrest : pair ∈ pairs := (List.mem_cons.mp h).resolve_left fun hfirst ↦ heq (hfirst ▸ rfl)
      obtain ⟨n, hn, hkey⟩ := ih hrest fun hmem ↦ (mem_insert_key.mp hmem).elim heq hseen
      exact ⟨n, List.mem_cons_of_mem _ hn, hkey⟩

/-- Grouped by distinct keys, every pair comes in one group. -/
theorem flatMap_filter_perm (key : String → String) (pairs : Pairs) {names : List String}
    (hnames : names.Pairwise fun n m ↦ key n ≠ key m) :
    (names.flatMap fun n ↦ pairs.filter fun pair ↦ key pair.1 = key n).Perm
      (pairs.filter fun pair ↦ ∃ n ∈ names, key pair.1 = key n) := by
  induction hnames with
  | nil => simp
  | @cons n names hn _ ih =>
    have hgroup : pairs.filter (fun pair ↦ key pair.1 = key n) =
        (pairs.filter fun pair ↦ ∃ m ∈ n :: names, key pair.1 = key m).filter
          fun pair ↦ key pair.1 = key n := by
      rw [List.filter_filter]
      exact List.filter_congr fun pair _ ↦ by grind
    have hrest : pairs.filter (fun pair ↦ ∃ m ∈ names, key pair.1 = key m) =
        (pairs.filter fun pair ↦ ∃ m ∈ n :: names, key pair.1 = key m).filter
          fun pair ↦ !decide (key pair.1 = key n) := by
      rw [List.filter_filter]
      exact List.filter_congr fun pair _ ↦ by grind
    rw [List.flatMap_cons]
    refine (ih.append_left _).trans ?_
    rw [hgroup, hrest]
    exact List.filter_append_perm _ _

/-- Under all the names together every value is found as often as it arrived. -/
theorem flatMap_valuesBy_perm (key : String → String) (pairs : Pairs) :
    ((namesBy key pairs).flatMap fun n ↦ valuesBy key n pairs).Perm (pairs.map Prod.snd) := by
  have hgroups : (namesBy key pairs).flatMap (fun n ↦ valuesBy key n pairs) =
      ((namesBy key pairs).flatMap fun n ↦
        pairs.filter fun pair ↦ key pair.1 = key n).map Prod.snd := by
    simp only [valuesBy, List.map_flatMap, Bool.beq_eq_decide_eq]
  have hall : pairs.filter (fun pair ↦ ∃ n ∈ namesBy key pairs, key pair.1 = key n) = pairs := by
    refine List.filter_eq_self.mpr fun pair hpair ↦ decide_eq_true ?_
    obtain ⟨n, hn, hkey⟩ := exists_mem_namesBeyond hpair Std.TreeSet.not_mem_emptyc
    exact ⟨n, hn, hkey.symm⟩
  have hperm := flatMap_filter_perm key pairs (pairwise_namesBeyond key ∅ pairs)
  rw [hgroups]
  exact (hperm.trans (.of_eq hall)).map Prod.snd

variable {same : String → String → Prop} [DecidableRel same]

/-- What is listed of the pairs behind those in front, whose keys were seen: the names that are new
from the very beginning. -/
theorem namesBeyond_eq (hsame : ∀ n m, same n m ↔ key n = key m) (front rest : Pairs)
    (hseen : ∀ k, k ∈ seen ↔ ∃ pair ∈ front, key pair.1 = k) :
    namesBeyond key seen rest = ((rest.zipIdx front.length).filter fun (pair, i) ↦
      NewAt same (front ++ rest) pair.1 i).map fun (pair, _) ↦ pair.1 := by
  induction rest generalizing seen front with
  | nil => rfl
  | cons pair rest ih =>
    have hnew : NewAt same (front ++ pair :: rest) pair.1 front.length ↔ key pair.1 ∉ seen := by
      simp [NewAt, hsame, hseen]
    have hassoc : front ++ pair :: rest = (front ++ [pair]) ++ rest := by simp
    have hlength : front.length + 1 = (front ++ [pair]).length := by simp
    rw [List.zipIdx_cons, namesBeyond]
    split
    next hmem =>
      rw [List.filter_cons_of_neg (by simpa [hnew] using hmem), hassoc, hlength]
      refine ih _ fun k ↦ ?_
      rw [hseen]
      -- the pair brings no new key
      obtain ⟨earlier, hearlier, hkey⟩ := (hseen _).mp hmem
      refine ⟨fun ⟨other, hother, h⟩ ↦ ⟨other, List.mem_append_left _ hother, h⟩, ?_⟩
      rintro ⟨other, hother, rfl⟩
      rcases List.mem_append.mp hother with hother | hother
      · exact ⟨other, hother, rfl⟩
      · rw [List.mem_singleton.mp hother]
        exact ⟨earlier, hearlier, hkey⟩
    next hmem =>
      rw [List.filter_cons_of_pos (by simpa [hnew] using hmem), hassoc, hlength, List.map_cons]
      refine congrArg (pair.1 :: ·) (ih _ fun k ↦ ?_)
      rw [mem_insert_key, hseen]
      simp [or_comm]

theorem dividedBy_key (hsame : ∀ n m, same n m ↔ key n = key m) (pairs : Pairs) :
    DividedBy same pairs (namesBy key pairs) fun n ↦ valuesBy key n pairs where
  distinct := (pairwise_namesBeyond key ∅ pairs).imp fun hne h ↦ hne ((hsame _ _).mp h)
  first := namesBeyond_eq hsame [] pairs fun k ↦ by simp
  found n := by simp only [valuesBy, hsame, Bool.beq_eq_decide_eq]
  once pair hpair := by
    obtain ⟨n, hn, hkey⟩ := exists_mem_namesBeyond hpair Std.TreeSet.not_mem_emptyc
    refine ⟨n, ⟨hn, (hsame _ _).mpr hkey.symm⟩, fun m ⟨hm, hsame'⟩ ↦ ?_⟩
    have hnodup : ((namesBy key pairs).map key).Nodup :=
      List.pairwise_map.mpr (pairwise_namesBeyond key ∅ pairs)
    exact List.inj_on_of_nodup_map hnodup hm hn (((hsame _ _).mp hsame').symm.trans hkey.symm)
  all := flatMap_valuesBy_perm key pairs
  congr h := by simp only [valuesBy, (hsame _ _).mp h]

end Pairs

namespace Metadata

theorem eqIgnoringCase_iff (n m : String) :
    Text.EqIgnoringCase n m ↔ headerKey n = headerKey m := (Text.lower_eq_iff n m).symm

/-- **The names that are listed divide up what arrived.** The headers are divided by their names
regardless of case, and the parameters by their exact names. -/
theorem dividedBy_names (m : Metadata) :
    m.headers.DividedBy Text.EqIgnoringCase m.headerNames m.header ∧
      m.parameters.DividedBy (· = ·) m.parameterNames m.parameter :=
  ⟨Pairs.dividedBy_key eqIgnoringCase_iff m.headers,
    Pairs.dividedBy_key (fun _ _ ↦ Iff.rfl) m.parameters⟩

/-- Two spellings of one name, and a name that comes between them. -/
example :
    let m : Metadata := ⟨"GET", "/", [("x-tag", "a"), ("Host", "h"), ("X-Tag", "b")], [], []⟩
    m.headerNames = ["x-tag", "Host"] ∧ m.header "X-TAG" = ["a", "b"] := by
  decide

end Metadata

end Turnstile
