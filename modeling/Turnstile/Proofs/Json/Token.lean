import Turnstile.Json.Token

/-!
# Tokens of what was written

A text and an integer as they are written are one token each, and the token stands for what was
written. A character stands in a text in one of three forms (`Escaped`), each of which is read as
one character and never as the quote that ends the text. An integer ends where its digits do, so
what comes behind it must be no digit, no point and no exponent; what ends a value is neither
(`Stops`).
-/

namespace Turnstile

namespace Json

variable {c : Char} {cs before rest literal : List Char}

/-! ## Escapes -/

/-- The number that an escape of six characters names. -/
def numberOf? : List Char → Option Nat
  | ['\\', 'u', a, b, c, d] => hexUnit? a b c d
  | _ => none

theorem numberOf?_controlEscape :
    ∀ n : Fin 32, numberOf? (controlEscape (Char.ofNat n)).toList = some n.val := by
  decide

/-- How a character can stand in a text. -/
inductive Escaped : Char → List Char → Prop where
  /-- By a letter that names it. -/
  | letter {letter c : Char} (named : unescapeLetter? letter = some c) : Escaped c ['\\', letter]
  /-- By its number. -/
  | number {c : Char} {cs : List Char} (number : numberOf? cs = some c.toNat)
    (small : c.toNat < 32) : Escaped c cs
  /-- As it is. -/
  | plain {c : Char} (quote : c ≠ '"') (backslash : c ≠ '\\') (control : ¬ c.val < 0x20) :
    Escaped c [c]

theorem escaped_escape (c : Char) : Escaped c (escape c).toList := by
  unfold escape
  iterate 7
    split
    next h => exact h ▸ .letter rfl
  split
  next h =>
    have hlt : c.toNat < 32 := UInt32.lt_iff_toNat_lt.mp h
    have hnumber := numberOf?_controlEscape ⟨c.toNat, hlt⟩
    rw [Char.ofNat_toNat] at hnumber
    exact .number hnumber hlt
  next hquote hbackslash _ _ _ _ _ hcontrol =>
    rw [Char.toString_eq_singleton, String.toList_singleton]
    exact .plain hquote hbackslash hcontrol

theorem literalAfter?_escaped (h : Escaped c cs) (before rest : List Char) :
    literalAfter? before (cs ++ rest) = literalAfter? (cs.reverse ++ before) rest := by
  cases h with
  | letter named =>
    unfold unescapeLetter? at named
    split at named <;> cases named <;> rfl
  | number number small =>
    unfold numberOf? at number
    split at number
    · simp [literalAfter?, number]
    · cases number
  | plain quote backslash control =>
    rw [List.singleton_append, literalAfter?, if_neg control]
    · rfl
    · exact quote
    · exact fun _ _ _ _ _ h _ ↦ backslash h
    · exact fun _ _ h _ ↦ backslash h

theorem unescapeAfter?_escaped (h : Escaped c cs) (before rest : List Char) :
    unescapeAfter? before (cs ++ rest) = unescapeAfter? (c :: before) rest := by
  cases h with
  | letter named =>
    unfold unescapeLetter? at named
    split at named <;> cases named <;> rfl
  | number number small =>
    unfold numberOf? at number
    split at number
    next a b c₃ c₄ =>
      simp only [List.cons_append, List.nil_append]
      rw [unescapeAfter?, number, Option.bind_eq_bind, Option.bind_some, if_neg (by omega),
        if_neg (by omega), Char.ofNat_toNat]
    · cases number
  | plain quote backslash control =>
    rw [List.singleton_append, unescapeAfter?]
    · exact fun _ _ _ _ _ h _ ↦ backslash h
    · exact fun _ _ h _ ↦ backslash h

/-! ## Texts -/

/-- What stands between the quotes of a text. -/
def literalOf (cs : List Char) : List Char := cs.flatMap fun c ↦ (escape c).toList

theorem toList_quote (s : String) : (quote s).toList = '"' :: (literalOf s.toList ++ ['"']) := by
  have hfold (cs : List Char) (out : String) :
      (cs.foldl (fun out c ↦ out ++ escape c) out).toList = out.toList ++ literalOf cs := by
    induction cs generalizing out with
    | nil => simp [literalOf]
    | cons c cs ih => rw [List.foldl_cons, ih, String.toList_append, literalOf, literalOf,
        List.flatMap_cons, List.append_assoc]
  rw [quote, String.toList_append, String.toList_append, hfold]
  rfl

theorem literalAfter?_literalOf (cs before rest : List Char) :
    literalAfter? before (literalOf cs ++ '"' :: rest) = some (before.reverse ++ literalOf cs) := by
  induction cs generalizing before with
  | nil => simp [literalOf, literalAfter?]
  | cons c cs ih =>
    rw [literalOf, List.flatMap_cons, List.append_assoc, literalAfter?_escaped (escaped_escape c),
      ← literalOf, ih]
    simp

/-- A literal stands for the characters that it was made of. -/
theorem unescapeAfter?_literalOf (cs before : List Char) :
    unescapeAfter? before (literalOf cs) = some (before.reverse ++ cs) := by
  induction cs generalizing before with
  | nil => simp [literalOf, unescapeAfter?]
  | cons c cs ih =>
    rw [literalOf, List.flatMap_cons, unescapeAfter?_escaped (escaped_escape c), ← literalOf, ih]
    simp

theorem ofLiteral_literalOf (s : String) : Text.ofLiteral (literalOf s.toList) = .plain s := by
  rw [Text.ofLiteral, unescapeAfter?_literalOf]
  exact congrArg Text.plain String.ofList_toList

/-! ## Numbers -/

/-- What comes behind a value: nothing, or what ends it. -/
def Stops (rest : List Char) : Prop := ∀ c ∈ rest.head?, c = ',' ∨ c = ']' ∨ c = '}'

theorem digitsValue_eq (cs : List Char) : digitsValue cs = Nat.ofDigitChars 10 cs 0 := by
  simp only [digitsValue, Nat.ofDigitChars_eq_foldl, Nat.mul_comm]
  rfl

theorem eq_zero_of_head?_toDigits {n : Nat} (h : (Nat.toDigits 10 n).head? = some '0') :
    n = 0 := by
  have hdigit : ∀ m : Fin 10, Nat.digitChar m = '0' → m = 0 := by decide
  induction n using Nat.strongRecOn with
  | _ n ih =>
    rw [Nat.toDigits_eq_if (by decide)] at h
    split at h
    next hlt => exact congrArg Fin.val (hdigit ⟨n, hlt⟩ (Option.some.inj h))
    next hge =>
      have hne : Nat.toDigits 10 (n / 10) ≠ [] := Nat.toDigits_ne_nil
      obtain ⟨d, ds, hds⟩ := List.exists_cons_of_ne_nil hne
      rw [hds] at h
      have hzero := ih (n / 10) (by omega) (by rw [hds]; exact h)
      omega

section Stops

variable {sign ds : List Char}

theorem Stops.countDigits (hrest : Stops rest) : countDigits rest = 0 := by
  cases rest with
  | nil => rfl
  | cons c rest => rcases hrest c rfl with rfl | rfl | rfl <;> rfl

theorem Stops.fractionLength? (hrest : Stops rest) : fractionLength? rest = some 0 := by
  cases rest with
  | nil => rfl
  | cons c rest => rcases hrest c rfl with rfl | rfl | rfl <;> rfl

theorem Stops.exponentLength? (hrest : Stops rest) : exponentLength? rest = some 0 := by
  cases rest with
  | nil => rfl
  | cons c rest => rcases hrest c rfl with rfl | rfl | rfl <;> rfl

theorem Stops.countDigits_append (hrest : Stops rest) (hds : ∀ d ∈ ds, d.isDigit = true) :
    Json.countDigits (ds ++ rest) = ds.length := by
  have hnone := hrest.countDigits
  rw [Json.countDigits] at hnone ⊢
  rw [List.takeWhile_append_of_pos hds, List.length_append, hnone]
  rfl

/-- A number ends where its digits do. -/
theorem Stops.numberLength? (hrest : Stops rest) (hsign : sign = [] ∨ sign = ['-'])
    (hds : ∀ d ∈ ds, d.isDigit = true) (hne : ds ≠ [])
    (hzero : ds.head? = some '0' → ds.length = 1) :
    Json.numberLength? (sign ++ (ds ++ rest)) =
      some (sign.length + ds.length, sign.length + ds.length) := by
  have hsigned : signLength ['-'] (sign ++ (ds ++ rest)) = sign.length := by
    rcases hsign with rfl | rfl
    · obtain ⟨d, more, rfl⟩ := List.exists_cons_of_ne_nil hne
      have hd : d ≠ '-' := by
        rintro rfl
        exact absurd (hds '-' List.mem_cons_self) (by decide)
      simp [signLength, hd]
    · rfl
  have hfront : ¬ (ds.length = 0 ∨ 1 < ds.length ∧ (ds ++ rest).head? = some '0') := by
    obtain ⟨d, more, rfl⟩ := List.exists_cons_of_ne_nil hne
    rintro (hnone | ⟨hlt, hhead⟩)
    · cases hnone
    · exact absurd (hzero hhead) (Nat.ne_of_gt hlt)
  have hrest' : (sign ++ (ds ++ rest)).drop (sign.length + ds.length) = rest := by
    rw [← List.append_assoc, ← List.length_append, List.drop_left]
  unfold Json.numberLength?
  rw [hsigned]
  dsimp only
  rw [List.drop_left, hrest.countDigits_append hds, if_neg hfront, hrest', hrest.fractionLength?]
  simp [hrest', hrest.exponentLength?]

end Stops

/-! ## Integers -/

theorem isDigit_toDigits (n : Nat) : ∀ d ∈ Nat.toDigits 10 n, d.isDigit = true := fun _ hd ↦
  Nat.isDigit_of_mem_toDigits (by decide) (by decide) hd

theorem toList_toString (n : Int) :
    (toString n).toList = (if n < 0 then ['-'] else []) ++ Nat.toDigits 10 n.natAbs := by
  rw [Int.toString_eq_repr, Int.repr_eq_if]
  by_cases hn : n < 0
  · rw [if_neg (by omega), if_pos hn, String.toList_append, Nat.toList_repr,
      show (-n).toNat = n.natAbs by omega]
    rfl
  · rw [if_pos (by omega), if_neg hn, Nat.toList_repr, show n.toNat = n.natAbs by omega]
    rfl

theorem numberOfLiteral_toString (n : Int) :
    numberOfLiteral (toString n).toList (toString n).toList.length = .integer n := by
  have hvalue : digitsValue (Nat.toDigits 10 n.natAbs) = n.natAbs := by
    rw [digitsValue_eq, Nat.ofDigitChars_ten_toDigits]
  unfold numberOfLiteral
  rw [if_pos rfl, toList_toString]
  by_cases hn : n < 0
  · rw [if_pos hn, List.singleton_append]
    change (if digitsValue (Nat.toDigits 10 n.natAbs) = 0 then Json.real _ else .integer _) = _
    rw [hvalue, if_neg (by omega), show -(n.natAbs : Int) = n by omega]
  · rw [if_neg hn, List.nil_append]
    split
    next digits hdigits =>
      have hminus : '-' ∈ Nat.toDigits 10 n.natAbs := by rw [hdigits]; exact List.mem_cons_self
      exact absurd (isDigit_toDigits _ _ hminus) (by decide)
    · rw [hvalue, show (n.natAbs : Int) = n by omega]

theorem numberLength?_toString (n : Int) (hrest : Stops rest) :
    numberLength? ((toString n).toList ++ rest) =
      some ((toString n).toList.length, (toString n).toList.length) := by
  rw [toList_toString, List.append_assoc, List.length_append]
  refine hrest.numberLength? (by split <;> simp) (isDigit_toDigits _) Nat.toDigits_ne_nil
    fun hzero ↦ ?_
  rw [eq_zero_of_head?_toDigits hzero]
  rfl

/-! ## The first token -/

theorem tokensAfter?_quote (s : String) (before : List Token) (rest : List Char) :
    tokensAfter? before ((quote s).toList ++ rest) =
      tokensAfter? (.text (.plain s) :: before) rest := by
  have hdrop :
      (literalOf s.toList ++ '"' :: rest).drop ((literalOf s.toList).length + 1) = rest := by
    rw [← List.drop_drop, List.drop_left]
    rfl
  rw [toList_quote, List.cons_append, List.append_assoc, List.singleton_append, tokensAfter?]
  simp only [isGap, punctuation?, literalAfter?_literalOf, List.reverse_nil, List.nil_append,
    ofLiteral_literalOf, hdrop]
  simp

theorem tokensAfter?_number (c : Char) (cs : List Char) {n front : Nat}
    (hc : c = '-' ∨ c.isDigit = true) (hlength : numberLength? (c :: cs) = some (n, front))
    (before : List Token) :
    tokensAfter? before (c :: cs) =
      tokensAfter? (.leaf (numberOfLiteral ((c :: cs).take n) front) :: before)
        (cs.drop (n - 1)) := by
  have hgap : isGap c = false := by
    refine Bool.eq_false_iff.mpr fun hgap ↦ ?_
    simp only [isGap, Bool.or_eq_true, decide_eq_true_eq] at hgap
    rcases hgap with ((rfl | rfl) | rfl) | rfl <;> revert hc <;> decide
  have hpunctuation : punctuation? c = none := by
    unfold punctuation?
    split <;> first | rfl | (revert hc; decide)
  have hquote : c ≠ '"' := by
    rintro rfl
    revert hc
    decide
  rw [tokensAfter?, hgap, hpunctuation]
  simp only [Bool.false_eq_true, if_false, if_neg hquote, if_pos hc, hlength]

theorem tokensAfter?_integer (n : Int) (before : List Token) (hrest : Stops rest) :
    tokensAfter? before ((toString n).toList ++ rest) =
      tokensAfter? (.leaf (.integer n) :: before) rest := by
  have hlength := numberLength?_toString n hrest
  have hne : (toString n).toList ≠ [] := by
    rw [toList_toString]
    exact List.append_ne_nil_of_right_ne_nil _ Nat.toDigits_ne_nil
  obtain ⟨c, cs, hcs⟩ := List.exists_cons_of_ne_nil hne
  have hc : c = '-' ∨ c.isDigit = true := by
    have hmem : c ∈ (toString n).toList := by rw [hcs]; exact List.mem_cons_self
    rw [toList_toString, List.mem_append] at hmem
    refine hmem.imp (fun hsign ↦ ?_) (isDigit_toDigits _ c)
    split at hsign
    · exact List.mem_singleton.mp hsign
    · cases hsign
  rw [hcs, List.cons_append] at hlength
  rw [hcs, List.cons_append, tokensAfter?_number c _ hc hlength, ← List.cons_append, List.take_left,
    ← hcs, numberOfLiteral_toString, hcs]
  simp

end Json

end Turnstile
