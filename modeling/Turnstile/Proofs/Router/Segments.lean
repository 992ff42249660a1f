import Mathlib.Data.List.DropRight
import Turnstile.Router

/-!
# Matching whole segments

A prefix matches the paths that begin with it, the slashes at its end left out, where the match
ends at the end of a segment: the path ends there too, or a slash follows. A prefix of slashes
alone matches everything.

## One prefix after another

Matching one prefix and then another on what is left is matching both at once. What makes this true
is that the second begins with a slash: it can only match where the first has left a boundary, so
the boundary that the first one asks for is the beginning of the second.
-/

namespace Turnstile

namespace Router

/-! ## Characters -/

/-- The characters can stand behind a whole segment. -/
def BeginsSegment (cs : List Char) : Prop := cs = [] ∨ cs.head? = some '/'

section

variable {path front rest a b : List Char}

theorem stripFront?_eq_some_iff : stripFront? front path = some rest ↔ path = front ++ rest := by
  induction front generalizing path with
  | nil => simp [stripFront?]
  | cons c front ih =>
    cases path with
    | nil => simp [stripFront?]
    | cons d path =>
      by_cases hcd : c = d
      · subst hcd
        simp [stripFront?, ih]
      · simp [stripFront?, hcd, Ne.symm hcd]

theorem dropSlashEnd_append (a b : List Char) :
    dropSlashEnd (a ++ b) =
      if dropSlashEnd b = [] then dropSlashEnd a else a ++ dropSlashEnd b := by
  simp only [dropSlashEnd, List.reverse_append, List.dropWhile_append, List.isEmpty_iff,
    List.reverse_eq_nil_iff]
  split <;> simp

theorem exists_dropSlashEnd (cs : List Char) :
    ∃ n, cs = dropSlashEnd cs ++ List.replicate n '/' := by
  have hslash : ∀ c ∈ cs.rtakeWhile (· == '/'), c = '/' := fun c hc ↦
    beq_iff_eq.mp (List.mem_rtakeWhile_imp (p := (· == '/')) hc)
  refine ⟨(cs.rtakeWhile (· == '/')).length, ?_⟩
  rw [← List.eq_replicate_of_mem hslash]
  exact List.rdropWhile_append_rtakeWhile.symm

theorem getLast?_dropSlashEnd (cs : List Char) : (dropSlashEnd cs).getLast? ≠ some '/' := by
  intro hlast
  obtain ⟨hne, hlast⟩ := List.mem_getLast?_eq_getLast hlast
  exact List.rdropWhile_last_not (· == '/') cs hne (beq_iff_eq.mpr hlast.symm)

theorem dropSlashEnd_replicate (n : ℕ) : dropSlashEnd (List.replicate n '/') = [] :=
  List.rdropWhile_eq_nil_iff.mpr fun _ hc ↦ beq_iff_eq.mpr (List.eq_of_mem_replicate hc)

theorem stripSegments?_eq_some_iff :
    stripSegments? path front = some rest ↔
      path = dropSlashEnd front ++ rest ∧ (dropSlashEnd front = [] ∨ BeginsSegment rest) := by
  unfold stripSegments?
  split
  next hnil => simp [hnil]
  next hne =>
    rw [← stripFront?_eq_some_iff]
    split
    next h =>
      rw [h, Option.some.injEq, or_iff_right hne]
      exact ⟨fun hrest ↦ ⟨hrest, .inl hrest.symm⟩, And.left⟩
    next more h =>
      rw [h, Option.some.injEq, or_iff_right hne]
      exact ⟨fun hrest ↦ ⟨hrest, .inr (by rw [← hrest]; rfl)⟩, And.left⟩
    next hempty hslash =>
      refine iff_of_false nofun fun ⟨h, hrest⟩ ↦ ?_
      rcases hrest.resolve_left hne with rfl | hhead
      · exact hempty h
      · obtain ⟨more, rfl⟩ := List.head?_eq_some_iff.mp hhead
        exact hslash more h

/-- A beginning of a segment keeps its slash, unless it is all slashes. -/
theorem beginsSegment_append (h : BeginsSegment b) (hne : dropSlashEnd b ≠ []) (rest : List Char) :
    BeginsSegment (dropSlashEnd b ++ rest) := by
  obtain ⟨n, hn⟩ := exists_dropSlashEnd b
  cases hb : dropSlashEnd b with
  | nil => exact absurd hb hne
  | cons c cs =>
    rw [hb] at hn
    rcases h with rfl | hhead
    · cases hn
    · rw [hn] at hhead
      exact .inr hhead

theorem stripSegments?_bind (h : BeginsSegment b) :
    (stripSegments? path a).bind (stripSegments? · b) =
      stripSegments? path (dropSlashEnd a ++ b) := by
  refine Option.ext fun rest ↦ ?_
  rw [Option.bind_eq_some_iff, stripSegments?_eq_some_iff, dropSlashEnd_append]
  simp only [stripSegments?_eq_some_iff]
  by_cases hb : dropSlashEnd b = []
  · -- the second one matches everything
    have ha : dropSlashEnd (dropSlashEnd a) = dropSlashEnd a :=
      List.rdropWhile_idempotent (· == '/') a
    rw [if_pos hb, hb, ha]
    constructor
    · rintro ⟨middle, hpath, rfl, -⟩
      exact hpath
    · intro hpath
      exact ⟨rest, hpath, rfl, .inl rfl⟩
  · rw [if_neg hb, List.append_eq_nil_iff, or_iff_right (not_and_of_not_right _ hb),
      List.append_assoc]
    constructor
    · rintro ⟨middle, ⟨rfl, -⟩, rfl, hrest⟩
      exact ⟨rfl, hrest.resolve_left hb⟩
    · rintro ⟨rfl, hrest⟩
      exact ⟨dropSlashEnd b ++ rest, ⟨rfl, .inr (beginsSegment_append h hb rest)⟩, rfl, .inr hrest⟩

end

/-! ## Texts -/

/-- A prefix without the slashes at its end. -/
def trim (front : String) : String := .ofList (dropSlashEnd front.toList)

/-- A number of slashes. -/
def slashes (n : ℕ) : String := .ofList (List.replicate n '/')

/-- The text can stand behind a whole segment: it is empty or begins with a slash. -/
def AtBoundary (s : String) : Prop := s = "" ∨ ∃ more, s = "/" ++ more

section

variable {path front rest a b : String}

theorem beginsSegment_toList : BeginsSegment rest.toList ↔ AtBoundary rest := by
  rw [BeginsSegment, String.toList_eq_nil_iff, List.head?_eq_some_iff, AtBoundary]
  refine or_congr_right ⟨fun ⟨cs, hcs⟩ ↦ ⟨.ofList cs, ?_⟩, fun ⟨more, hmore⟩ ↦ ⟨more.toList, ?_⟩⟩
  · rw [← String.toList_inj, hcs]
    simp
  · rw [hmore, String.toList_append]
    rfl

theorem trim_spec (front : String) :
    (∃ n, front = trim front ++ slashes n) ∧ (trim front).toList.getLast? ≠ some '/' := by
  rw [trim, String.toList_ofList]
  refine ⟨?_, getLast?_dropSlashEnd _⟩
  obtain ⟨n, hn⟩ := exists_dropSlashEnd front.toList
  refine ⟨n, ?_⟩
  rw [slashes, ← String.ofList_append, ← hn, String.ofList_toList]

/-- A prefix matches the paths that begin with its trimmed form where a segment ends, and what is
left is the rest. -/
theorem strip?_eq_some_iff :
    strip? path front = some rest ↔
      path = trim front ++ rest ∧ (trim front = "" ∨ AtBoundary rest) := by
  have htrim : trim front = "" ↔ dropSlashEnd front.toList = [] := by
    rw [← String.toList_eq_nil_iff, trim, String.toList_ofList]
  have hpath : path = trim front ++ rest ↔
      path.toList = dropSlashEnd front.toList ++ rest.toList := by
    rw [← String.toList_inj, String.toList_append, trim, String.toList_ofList]
  rw [htrim, hpath, ← beginsSegment_toList, ← stripSegments?_eq_some_iff, strip?,
    Option.map_eq_map, Option.map_eq_some_iff]
  constructor
  · rintro ⟨cs, hcs, rfl⟩
    rwa [String.toList_ofList]
  · intro h
    exact ⟨rest.toList, h, String.ofList_toList⟩

/-- Prefixes match alike when they differ in the slashes at their ends only. -/
theorem strip?_of_trim_eq (h : trim a = trim b) : strip? path a = strip? path b := by
  refine Option.ext fun rest ↦ ?_
  rw [strip?_eq_some_iff, strip?_eq_some_iff, h]

theorem trim_append_slashes (front : String) (n : ℕ) : trim (front ++ slashes n) = trim front := by
  rw [trim, String.toList_append, slashes, String.toList_ofList, dropSlashEnd_append,
    if_pos (dropSlashEnd_replicate n), trim]

theorem strip?_bind (h : AtBoundary b) :
    (strip? path a).bind (strip? · b) = strip? path (trim a ++ b) := by
  simp only [strip?, Option.map_eq_map, trim, String.toList_append, String.toList_ofList]
  rw [← stripSegments?_bind (beginsSegment_toList.mpr h), Option.bind_map, Option.map_bind]
  simp only [Function.comp_def, String.toList_ofList]

end

variable {k : Kind}

theorem dispatch_singleton (path front : String) (step : Step k) :
    (ofList [(front, step)]).dispatch path =
      match strip? path front with
      | some rest => .hit rest step
      | none => .miss := by
  rw [dispatch, ofList, Journal.toList_ofList, firstMatch, List.findSome?_singleton]
  cases strip? path front <;> rfl

/-- **How prefixes match.** What a prefix matches, and what it leaves, is said by its trimmed form;
slashes at its end make no difference; and one prefix after the other is both at once, so a router
in a router matches exactly the paths of the two prefixes together. -/
theorem strip?_segments :
    (∀ front, (∃ n, front = trim front ++ slashes n) ∧
      (trim front).toList.getLast? ≠ some '/') ∧
    (∀ path front rest, strip? path front = some rest ↔
      path = trim front ++ rest ∧ (trim front = "" ∨ AtBoundary rest)) ∧
    (∀ path front m n, strip? path (front ++ slashes m) = strip? path (front ++ slashes n)) ∧
    ∀ path a b, AtBoundary b →
      (strip? path a).bind (strip? · b) = strip? path (trim a ++ b) ∧
      ∀ (step : Step k) (rest : String),
        (∃ middle,
          (ofList [(a, (ofList [(b, step)]).toStep)]).dispatch path =
            .hit middle (ofList [(b, step)]).toStep ∧
          (ofList [(b, step)]).dispatch middle = .hit rest step) ↔
        (ofList [(trim a ++ b, step)]).dispatch path = .hit rest step := by
  refine ⟨trim_spec, fun _ _ _ ↦ strip?_eq_some_iff, fun path front m n ↦ ?_,
    fun path a b h ↦ ⟨strip?_bind h, fun step rest ↦ ?_⟩⟩
  · apply strip?_of_trim_eq
    rw [trim_append_slashes, trim_append_slashes]
  · simp only [dispatch_singleton, ← strip?_bind h]
    cases strip? path a with
    | none => simp
    | some middle => cases strip? middle b <;> simp

/-- A prefix that ends in two slashes, and behind it one with a letter of two bytes. -/
theorem strip?_segments_twice :
    AtBoundary "/ä/" ∧
      (strip? "/api/ä/x" "/api//").bind (strip? · "/ä/") =
        strip? "/api/ä/x" (trim "/api//" ++ "/ä/") ∧
      strip? "/api/ä/x" (trim "/api//" ++ "/ä/") = some "/x" := by
  have h : AtBoundary "/ä/" := .inr ⟨"ä/", rfl⟩
  obtain ⟨-, -, -, hbind⟩ := strip?_segments (k := .unit)
  exact ⟨h, (hbind _ _ _ h).1, by decide⟩

end Router

end Turnstile
