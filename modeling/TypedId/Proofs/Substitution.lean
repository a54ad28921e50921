import Mathlib.Data.List.Infix
import TypedId.Text.Search

/-!
# Substitution

Substituting for a token walks over the text once: an occurrence becomes the value, any other
character stays. Between two texts it works on either alone unless the token straddles the seam.
-/

namespace TypedId.Text

/-! ### Seams -/

/-- An occurrence of `token` in `a ++ b` that lies in neither part. -/
def Straddles (token a b : Text) : Prop :=
  ∃ l r, l ≠ [] ∧ r ≠ [] ∧ token = l ++ r ∧ l <:+ a ∧ r <+: b

theorem infix_append_iff_straddles {token a b : Text} :
    token <:+: a ++ b ↔ token <:+: a ∨ token <:+: b ∨ Straddles token a b :=
  List.infix_append_iff_ne_nil

/-- A character that the token lacks keeps it from crossing the seam after it. -/
theorem not_straddles_concat {token : Text} {c : Char} (h : c ∉ token) (a b : Text) :
    ¬ Straddles token (a ++ [c]) b := by
  rintro ⟨l, r, hl, -, rfl, hs, -⟩
  rcases List.suffix_concat_iff.1 hs with rfl | ⟨t, rfl, -⟩
  · exact hl rfl
  · exact h (by simp)

/-- The same for the seam before it. -/
theorem not_straddles_cons {token : Text} {c : Char} (h : c ∉ token) (a b : Text) :
    ¬ Straddles token a (c :: b) := by
  rintro ⟨l, r, -, hr, rfl, -, hp⟩
  rcases List.prefix_cons_iff.1 hp with rfl | ⟨t, rfl, -⟩
  · exact hr rfl
  · exact h (by simp)

/-- A token does not cross a seam if none of its ends opens the text after it. -/
theorem not_straddles_of_drop {token a b : Text}
    (h : ∀ k < token.length, 0 < k → ¬ token.drop k <+: b) : ¬ Straddles token a b := by
  rintro ⟨l, r, hl, hr, rfl, -, hp⟩
  have hl' := List.length_pos_iff.2 hl
  have hr' := List.length_pos_iff.2 hr
  refine h l.length (by rw [List.length_append]; omega) hl' ?_
  rwa [List.drop_left]

/-- Nor if none of its fronts ends the text before it. -/
theorem not_straddles_of_take {token a b : Text}
    (h : ∀ k < token.length, 0 < k → ¬ token.take k <:+ a) : ¬ Straddles token a b := by
  rintro ⟨l, r, hl, hr, rfl, hs, -⟩
  have hl' := List.length_pos_iff.2 hl
  have hr' := List.length_pos_iff.2 hr
  refine h l.length (by rw [List.length_append]; omega) hl' ?_
  rwa [List.take_left]

theorem Straddles.cons {token a b : Text} (h : Straddles token a b) (c : Char) :
    Straddles token (c :: a) b := by
  obtain ⟨l, r, hl, hr, e, hs, hp⟩ := h
  exact ⟨l, r, hl, hr, e, hs.trans (List.suffix_cons c a), hp⟩

/-- A token at the front of a non-empty text does not reach past a seam that it cannot cross. -/
theorem prefix_of_not_straddles {token a b : Text} (ha : a ≠ []) (h : ¬ Straddles token a b)
    (hp : token <+: a ++ b) : token <+: a := by
  obtain ⟨t, ht⟩ := hp
  rcases List.append_eq_append_iff.1 ht with ⟨as, e, -⟩ | ⟨r, e, hb⟩
  · exact ⟨as, e.symm⟩
  · by_cases hr : r = []
    · exact ⟨[], by simp [e, hr]⟩
    · exact absurd ⟨a, r, ha, hr, e, List.suffix_rfl, ⟨t, hb.symm⟩⟩ h

/-- Nor does it start at such a character. -/
theorem not_prefix_cons {token : Text} {c : Char} (h : c ∉ token) (hne : token ≠ []) (b : Text) :
    ¬ token <+: c :: b := by
  intro hp
  rcases List.prefix_cons_iff.1 hp with e | ⟨t, e, -⟩
  · exact hne e
  · exact h (e ▸ List.mem_cons_self)

theorem infix_append_cons_iff {token : Text} {c : Char} (h : c ∉ token) (hne : token ≠ [])
    {a b : Text} : token <:+: a ++ c :: b ↔ token <:+: a ∨ token <:+: b := by
  rw [infix_append_iff_straddles, List.infix_cons_iff]
  simp [not_prefix_cons h hne, not_straddles_cons h]

/-- Between two texts that are set apart by something without the token's characters, the token
stands in either. -/
theorem infix_append_append_iff {token sep : Text} (hsep : sep ≠ []) (h : ∀ c ∈ sep, c ∉ token)
    (hne : token ≠ []) {a b : Text} :
    token <:+: a ++ sep ++ b ↔ token <:+: a ∨ token <:+: b := by
  induction sep generalizing a with
  | nil => exact absurd rfl hsep
  | cons c sep ih =>
    obtain ⟨hc, hrest⟩ := List.forall_mem_cons.1 h
    rw [List.append_assoc, List.cons_append, infix_append_cons_iff hc hne]
    by_cases hs : sep = []
    · rw [hs, List.nil_append]
    · have hnil : ¬ token <:+: [] := fun hi => hne (List.infix_nil.1 hi)
      rw [← List.nil_append sep, ih hs hrest, or_iff_right hnil]

/-- In a list of texts that are joined together a token stands within one of them. -/
theorem infix_intercalate_iff {token sep : Text} (hsep : sep ≠ []) (h : ∀ c ∈ sep, c ∉ token)
    (hne : token ≠ []) {texts : List Text} :
    token <:+: sep.intercalate texts ↔ ∃ text ∈ texts, token <:+: text := by
  induction texts with
  | nil => simp [List.intercalate_nil, hne]
  | cons a texts ih =>
    cases texts with
    | nil => simp
    | cons b texts =>
      rw [List.intercalate_cons_cons, infix_append_append_iff hsep h hne, ih]
      simp

/-- What every text in a list has at its end, the joined text has at its end. -/
theorem intercalate_induction {P : Text → Prop} (append : ∀ a b, P b → P (a ++ b)) {sep : Text}
    {texts : List Text} (hne : texts ≠ []) (h : ∀ t ∈ texts, P t) : P (sep.intercalate texts) := by
  induction texts with
  | nil => exact absurd rfl hne
  | cons a texts ih =>
    obtain ⟨ha, hrest⟩ := List.forall_mem_cons.1 h
    cases texts with
    | nil => rwa [List.intercalate_singleton]
    | cons b texts =>
      rw [List.intercalate_cons_cons]
      exact append _ _ (ih (List.cons_ne_nil b texts) hrest)

/-! ### The pieces -/

theorem piecesFrom_eq (token : Text) (k : Nat) (s : Text) :
    piecesFrom token k s = pieces token (s.drop k) := by
  induction s generalizing k with
  | nil => cases k <;> simp [pieces, piecesFrom]
  | cons c s ih =>
    cases k with
    | zero => rfl
    | succ k => rw [piecesFrom, ih, List.drop_succ_cons]

theorem pieces_token_append {token : Text} (h : token ≠ []) (s : Text) :
    pieces token (token ++ s) = [] :: pieces token s := by
  obtain ⟨c, t, rfl⟩ := List.exists_cons_of_ne_nil h
  rw [pieces, List.cons_append, piecesFrom, if_pos (by simp), piecesFrom_eq]
  simp

theorem pieces_cons {token : Text} {c : Char} {s : Text} (h : ¬ token <+: c :: s) :
    pieces token (c :: s) = consFirst c (pieces token s) := by
  have hp : token.isPrefixOf (c :: s) = false := by simpa [Bool.eq_false_iff] using h
  rw [pieces, piecesFrom, hp]
  rfl

theorem pieces_ne_nil (token s : Text) : pieces token s ≠ [] := by
  cases s with
  | nil => simp [pieces, piecesFrom]
  | cons c s =>
    rw [pieces, piecesFrom]
    split
    · exact List.cons_ne_nil _ _
    · cases piecesFrom token 0 s <;> simp [consFirst]

theorem intercalate_consFirst (value : Text) (c : Char) {ps : List Text} (h : ps ≠ []) :
    value.intercalate (consFirst c ps) = c :: value.intercalate ps := by
  cases ps with
  | nil => exact absurd rfl h
  | cons p ps => cases ps <;> simp [consFirst]

/-! ### Substituting -/

@[simp] theorem substitute_nil (token value : Text) : substitute token value [] = [] := by
  simp [substitute, pieces, piecesFrom]

theorem substitute_token_append {token : Text} (h : token ≠ []) (value s : Text) :
    substitute token value (token ++ s) = value ++ substitute token value s := by
  rw [substitute, pieces_token_append h,
    List.intercalate_cons_of_ne_nil (pieces_ne_nil token s)]
  rfl

theorem substitute_self {token : Text} (h : token ≠ []) (value : Text) :
    substitute token value token = value := by
  have hs := substitute_token_append h value []
  rwa [substitute_nil, List.append_nil, List.append_nil] at hs

theorem substitute_cons {token : Text} {c : Char} {s : Text} (h : ¬ token <+: c :: s)
    (value : Text) : substitute token value (c :: s) = c :: substitute token value s := by
  rw [substitute, pieces_cons h, intercalate_consFirst value c (pieces_ne_nil token s)]
  rfl

/-- Induction along the walk: a text is empty, or opens with the token, or with a character that
stays. -/
theorem walk_induction {token : Text} (hne : token ≠ []) {P : Text → Prop} (nil : P [])
    (token_append : ∀ s, P s → P (token ++ s))
    (cons : ∀ c s, ¬ token <+: c :: s → P s → P (c :: s)) (s : Text) : P s := by
  induction hn : s.length using Nat.strongRecOn generalizing s with
  | _ n ih =>
    cases s with
    | nil => exact nil
    | cons c s =>
      by_cases hp : token <+: c :: s
      · obtain ⟨t, ht⟩ := hp
        have hlen := congrArg List.length ht
        have hpos := List.length_pos_iff.2 hne
        rw [List.length_append] at hlen
        rw [← ht]
        exact token_append t (ih t.length (by omega) t rfl)
      · exact cons c s hp (ih s.length (by simp [← hn]) s rfl)

theorem substitute_append {token : Text} (hne : token ≠ []) (value : Text) {a b : Text}
    (h : ¬ Straddles token a b) :
    substitute token value (a ++ b) = substitute token value a ++ substitute token value b := by
  induction a using walk_induction hne with
  | nil => simp
  | token_append s ih =>
    have hs : ¬ Straddles token s b := by
      rintro ⟨l, r, hl, hr, e, hsuf, hpre⟩
      exact h ⟨l, r, hl, hr, e, hsuf.trans (List.suffix_append token s), hpre⟩
    rw [List.append_assoc, substitute_token_append hne, substitute_token_append hne, ih hs,
      List.append_assoc]
  | cons c s hc ih =>
    have hs : ¬ Straddles token s b := fun hs => h (hs.cons c)
    have hcb : ¬ token <+: c :: (s ++ b) := fun hp =>
      hc (prefix_of_not_straddles (List.cons_ne_nil c s) h hp)
    rw [List.cons_append, substitute_cons hcb, substitute_cons hc, ih hs, List.cons_append]

/-- A character that the token lacks splits the work in two. -/
theorem substitute_append_cons {token : Text} (hne : token ≠ []) {c : Char} (hc : c ∉ token)
    (value a b : Text) :
    substitute token value (a ++ c :: b) =
      substitute token value a ++ c :: substitute token value b := by
  rw [substitute_append hne value (not_straddles_cons hc a b),
    substitute_cons (not_prefix_cons hc hne b)]

/-- A text without the token stays as it is. -/
theorem substitute_of_absent {token : Text} (value : Text) {s : Text} (h : ¬ token <:+: s) :
    substitute token value s = s := by
  induction s with
  | nil => simp
  | cons c s ih =>
    rw [List.infix_cons_iff, not_or] at h
    rw [substitute_cons h.1, ih h.2]

theorem substitute_intercalate {token : Text} (hne : token ≠ []) {c : Char} (hc : c ∉ token)
    (value : Text) (lines : List Text) :
    substitute token value ([c].intercalate lines) =
      [c].intercalate (lines.map (substitute token value)) := by
  induction lines with
  | nil => simp [List.intercalate_nil]
  | cons a lines ih =>
    cases lines with
    | nil => simp
    | cons b lines =>
      rw [List.intercalate_cons_cons, List.append_assoc, List.singleton_append,
        substitute_append_cons hne hc, ih]
      simp

/-! ### Searching -/

theorem occursIn_iff_infix {needle s : Text} : occursIn needle s = true ↔ needle <:+: s := by
  induction s with
  | nil => by_cases hn : needle = [] <;> simp [occursIn, splitFirst?, hn]
  | cons c s ih =>
    rw [List.infix_cons_iff, ← ih, occursIn, splitFirst?]
    cases hr : needle.isPrefixOf? (c :: s) with
    | some rest =>
      have hp : needle <+: c :: s := ⟨rest, List.isPrefixOf?_eq_some_iff_append_eq.1 hr⟩
      simp [hp]
    | none =>
      have hp : ¬ needle <+: c :: s := by
        rintro ⟨t, ht⟩
        rw [List.isPrefixOf?_eq_some_iff_append_eq.2 ht] at hr
        cases hr
      simp [hp, occursIn]

end TypedId.Text
