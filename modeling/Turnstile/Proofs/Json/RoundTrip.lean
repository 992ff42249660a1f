import Turnstile.Json.Parse
import Turnstile.Proofs.Json.Token

/-!
# Reading what was written

A value is written and read in two layers: its text falls into tokens, and the reader builds a
value from them. Between the two stand the tokens of a value (`Json.tokens`). They are what its text
is cut into, in front of whatever ends it (`Plain.cut`), and they take the reader from a state in
which a value must follow to the one in which this value is complete, whatever is still open
(`Plain.builds`). So every value that has a meaning here is read back from its text.
-/

namespace Turnstile

namespace Json

variable {v : Json} {before : List Token} {rest : List Char}

/-- The texts in the value are texts and the numbers in it are integers. -/
inductive Plain : Json → Prop where
  | null : Plain .null
  | bool (b : Bool) : Plain (.bool b)
  | integer (n : Int) : Plain (.integer n)
  | text (s : String) : Plain (.text (.plain s))
  | array {items : List Json} (plain : ∀ item ∈ items, Plain item) : Plain (.array items)
  | object {members : List (Json.Text × Json)}
    (names : ∀ member ∈ members, ∃ name, member.1 = .plain name)
    (plain : ∀ member ∈ members, Plain member.2) : Plain (.object members)

mutual

/-- The tokens of a value. -/
def tokens : Json → List Token
  | .text s => [.text s]
  | .array items => .openArray :: itemTokens items ++ [.closeArray]
  | .object members => .openObject :: memberTokens members ++ [.closeObject]
  | value => [.leaf value]

/-- The tokens of items, with commas between them. -/
def itemTokens : List Json → List Token
  | [] => []
  | [item] => item.tokens
  | item :: items => item.tokens ++ .comma :: itemTokens items

/-- The tokens of members, with commas between them. -/
def memberTokens : List (Json.Text × Json) → List Token
  | [] => []
  | [(name, value)] => .text name :: .colon :: value.tokens
  | (name, value) :: members =>
    .text name :: .colon :: (value.tokens ++ .comma :: memberTokens members)

end

section

variable (item next : Json) (items : List Json) (member other : Json.Text × Json)
  (members : List (Json.Text × Json))

theorem itemTokens_cons_cons :
    itemTokens (item :: next :: items) = item.tokens ++ .comma :: itemTokens (next :: items) := by
  rw [itemTokens]
  exact List.cons_ne_nil _ _

theorem memberTokens_cons_cons :
    memberTokens (member :: other :: members) =
      .text member.1 :: .colon ::
        (member.2.tokens ++ .comma :: memberTokens (other :: members)) := by
  rw [memberTokens]
  exact List.cons_ne_nil _ _

end

/-! ## Texts fall into tokens -/

theorem stops_nil : Stops [] := nofun

theorem stops_cons {c : Char} (h : c = ',' ∨ c = ']' ∨ c = '}') (rest : List Char) :
    Stops (c :: rest) := by
  rintro d hd
  cases hd
  exact h

theorem tokensAfter?_punctuation {c : Char} {token : Token} (h : punctuation? c = some token)
    (before : List Token) (rest : List Char) :
    tokensAfter? before (c :: rest) = tokensAfter? (token :: before) rest := by
  unfold punctuation? at h
  split at h <;> cases h <;> rw [tokensAfter?] <;> rfl

theorem tokensAfter?_null (before : List Token) (rest : List Char) :
    tokensAfter? before ("null".toList ++ rest) = tokensAfter? (.leaf .null :: before) rest := by
  change tokensAfter? before ('n' :: 'u' :: 'l' :: 'l' :: rest) = _
  rw [tokensAfter?]
  simp [isGap, punctuation?, names]

theorem tokensAfter?_bool (b : Bool) (before : List Token) (rest : List Char) :
    tokensAfter? before ((render (.bool b)).toList ++ rest) =
      tokensAfter? (.leaf (.bool b) :: before) rest := by
  cases b with
  | true =>
    change tokensAfter? before ('t' :: 'r' :: 'u' :: 'e' :: rest) = _
    rw [tokensAfter?]
    simp [isGap, punctuation?, names, List.isPrefixOf]
  | false =>
    change tokensAfter? before ('f' :: 'a' :: 'l' :: 's' :: 'e' :: rest) = _
    rw [tokensAfter?]
    simp [isGap, punctuation?, names, List.isPrefixOf]

/-- The text of the value is cut into its tokens, in front of whatever ends it. -/
def Cut (v : Json) : Prop :=
  ∀ (before : List Token) (rest : List Char), Stops rest →
    tokensAfter? before (v.render.toList ++ rest) = tokensAfter? (v.tokens.reverse ++ before) rest

theorem tokensAfter?_renderItems {items : List Json} (cut : ∀ item ∈ items, item.Cut)
    (before : List Token) (rest : List Char) :
    tokensAfter? before ((renderItems items).toList ++ ']' :: rest) =
      tokensAfter? ((itemTokens items).reverse ++ before) (']' :: rest) := by
  induction items generalizing before with
  | nil => rfl
  | cons item items ih =>
    rw [List.forall_mem_cons] at cut
    cases items with
    | nil => exact cut.1 before _ (stops_cons (.inr (.inl rfl)) rest)
    | cons next items =>
      have hrender : (renderItems (item :: next :: items)).toList ++ ']' :: rest =
          item.render.toList ++ ',' :: ((renderItems (next :: items)).toList ++ ']' :: rest) := by
        rw [renderItems, String.toList_append, String.toList_append, List.append_assoc,
          List.append_assoc]
        · rfl
        · exact List.cons_ne_nil _ _
      rw [hrender, itemTokens_cons_cons, cut.1 before _ (stops_cons (.inl rfl) _),
        tokensAfter?_punctuation rfl, ih cut.2]
      simp

theorem tokensAfter?_renderMembers {members : List (Json.Text × Json)}
    (names : ∀ member ∈ members, ∃ name, member.1 = .plain name)
    (cut : ∀ member ∈ members, member.2.Cut) (before : List Token) (rest : List Char) :
    tokensAfter? before ((renderMembers members).toList ++ '}' :: rest) =
      tokensAfter? ((memberTokens members).reverse ++ before) ('}' :: rest) := by
  induction members generalizing before with
  | nil => rfl
  | cons member members ih =>
    rw [List.forall_mem_cons] at names cut
    obtain ⟨name, value⟩ := member
    obtain ⟨s, rfl⟩ : ∃ s, name = .plain s := names.1
    have hname (rest : List Char) :
        tokensAfter? before ((Text.plain s).render.toList ++ ':' :: rest) =
          tokensAfter? (.colon :: .text (.plain s) :: before) rest :=
      (tokensAfter?_quote s before _).trans (tokensAfter?_punctuation rfl _ _)
    cases members with
    | nil =>
      have hrender : (renderMembers [(.plain s, value)]).toList ++ '}' :: rest =
          (Text.plain s).render.toList ++ ':' :: (value.render.toList ++ '}' :: rest) := by
        rw [renderMembers, String.toList_append, String.toList_append, List.append_assoc,
          List.append_assoc]
        rfl
      rw [hrender, hname, cut.1 _ _ (stops_cons (.inr (.inr rfl)) rest), memberTokens]
      simp
    | cons next members =>
      have hrender : (renderMembers ((.plain s, value) :: next :: members)).toList ++ '}' :: rest =
          (Text.plain s).render.toList ++ ':' :: (value.render.toList ++
            ',' :: ((renderMembers (next :: members)).toList ++ '}' :: rest)) := by
        rw [renderMembers]
        · simp only [String.toList_append, List.append_assoc]
          rfl
        · exact List.cons_ne_nil _ _
      rw [hrender, hname, cut.1 _ _ (stops_cons (.inl rfl) _), tokensAfter?_punctuation rfl,
        ih names.2 cut.2, memberTokens_cons_cons]
      simp

theorem Plain.cut (h : v.Plain) : v.Cut := by
  induction h with
  | null => exact fun before rest _ ↦ tokensAfter?_null before rest
  | bool b => exact fun before rest _ ↦ tokensAfter?_bool b before rest
  | integer n => exact fun before rest hrest ↦ tokensAfter?_integer n before hrest
  | text s => exact fun before rest _ ↦ tokensAfter?_quote s before rest
  | @array items plain cut =>
    intro before rest _
    have hrender : (render (.array items)).toList ++ rest =
        '[' :: ((renderItems items).toList ++ ']' :: rest) := by
      rw [render, String.toList_append, String.toList_append, List.append_assoc, List.append_assoc]
      rfl
    rw [hrender, tokensAfter?_punctuation rfl, tokensAfter?_renderItems cut,
      tokensAfter?_punctuation rfl, tokens]
    simp
  | @object members names plain cut =>
    intro before rest _
    have hrender : (render (.object members)).toList ++ rest =
        '{' :: ((renderMembers members).toList ++ '}' :: rest) := by
      rw [render, String.toList_append, String.toList_append, List.append_assoc, List.append_assoc]
      rfl
    rw [hrender, tokensAfter?_punctuation rfl, tokensAfter?_renderMembers names cut,
      tokensAfter?_punctuation rfl, tokens]
    simp

/-! ## Tokens build the value -/

/-- The tokens of the value take the reader from where a value must follow to where this value is
complete, whatever is open. -/
def Builds (v : Json) : Prop :=
  ∀ frames, v.tokens.foldlM step (.value frames) = some (.complete v frames)

theorem foldlM_itemTokens {item : Json} {items : List Json}
    (builds : ∀ value ∈ item :: items, value.Builds) (before : List Json) (frames : List Frame) :
    (itemTokens (item :: items) ++ [Token.closeArray]).foldlM step
        (.value (.item before :: frames)) =
      some (.complete (.array (before.reverse ++ item :: items)) frames) := by
  induction items generalizing item before with
  | nil =>
    rw [itemTokens, List.foldlM_append, builds item List.mem_cons_self]
    simp [step]
  | cons next items ih =>
    rw [List.forall_mem_cons] at builds
    rw [itemTokens_cons_cons, List.append_assoc, List.foldlM_append, builds.1]
    refine (ih builds.2 (item :: before)).trans ?_
    simp

theorem foldlM_memberTokens {member : Json.Text × Json} {members : List (Json.Text × Json)}
    (builds : ∀ other ∈ member :: members, other.2.Builds) (before : List (Json.Text × Json))
    (frames : List Frame) :
    (memberTokens (member :: members) ++ [Token.closeObject]).foldlM step
        (.nextName before frames) =
      some (.complete (.object (before.reverse ++ member :: members)) frames) := by
  induction members generalizing member before with
  | nil =>
    obtain ⟨name, value⟩ := member
    have hvalue : value.Builds := builds _ List.mem_cons_self
    change (value.tokens ++ [Token.closeObject]).foldlM step
      (.value (.member before name :: frames)) = _
    rw [List.foldlM_append, hvalue]
    simp [step]
  | cons next members ih =>
    rw [List.forall_mem_cons] at builds
    obtain ⟨name, value⟩ := member
    have hvalue : value.Builds := builds.1
    rw [memberTokens_cons_cons]
    change ((value.tokens ++ .comma :: memberTokens (next :: members)) ++
      [Token.closeObject]).foldlM step (.value (.member before name :: frames)) = _
    rw [List.append_assoc, List.foldlM_append, hvalue]
    refine (ih builds.2 ((name, value) :: before)).trans ?_
    simp

theorem Plain.builds (h : v.Plain) : v.Builds := by
  induction h with
  | null | bool b | integer n | text s => exact fun frames ↦ rfl
  | @array items plain builds =>
    intro frames
    rw [tokens]
    cases items with
    | nil => rfl
    | cons item items =>
      -- the first token of a value may also stand where a list has been opened
      have hfirst : (itemTokens (item :: items) ++ [Token.closeArray]).foldlM step
          (.firstItem frames) = (itemTokens (item :: items) ++ [Token.closeArray]).foldlM step
            (.value (.item [] :: frames)) := by
        cases items <;> cases item <;> rfl
      exact hfirst.trans (foldlM_itemTokens builds [] frames)
  | @object members names plain builds =>
    intro frames
    rw [tokens]
    cases members with
    | nil => rfl
    | cons member members =>
      have hfirst : (memberTokens (member :: members) ++ [Token.closeObject]).foldlM step
          (.firstName frames) = (memberTokens (member :: members) ++ [Token.closeObject]).foldlM
            step (.nextName [] frames) := by
        cases members <;> rfl
      exact hfirst.trans (foldlM_memberTokens builds [] frames)

/-- **What was written is read back.** A value all of whose texts and numbers have a meaning is the
value of its text, whatever characters stand in the texts and however large the integers are. -/
theorem Plain.parse?_render (h : v.Plain) : parse? v.render = some v := by
  have hcut := h.cut [] [] stops_nil
  rw [List.append_nil, List.append_nil, tokensAfter?, List.reverse_reverse] at hcut
  rw [parse?, tokens?, hcut, Option.bind_eq_bind, Option.bind_some, ofTokens?, h.builds]
  rfl

end Json

end Turnstile
