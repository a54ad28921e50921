import Mathlib.Data.List.TakeWhile
import TypedId.Placeholder
import TypedId.Proofs.Substitution

/-!
# The placeholder scanner

The scanner finds a placeholder exactly when one stands in the text, so a rendered text holds none.
Joining texts by line ends makes no new placeholder; a closing brace after a text can complete one.
-/

namespace TypedId.Placeholder

/-- Whether a placeholder stands somewhere in a text. -/
def Leftover (s : Text) : Prop := ∃ token, IsPlaceholder token ∧ token <:+: s

/-- Whether a text ends in a placeholder that lacks its last brace. -/
def OpenAtEnd (s : Text) : Prop :=
  ∃ name, isName name = true ∧ ['\x7b', '\x7b'] ++ name ++ ['\x7d'] <:+ s

/-! ### Placeholders -/

theorem all_isNamePart_of_isName {name : Text} (h : isName name = true) :
    ∀ c ∈ name, isNamePart c = true := by
  cases name with
  | nil => cases h
  | cons c s =>
    obtain ⟨hc, hs⟩ := Bool.and_eq_true_iff.1 h
    intro d hd
    rcases List.mem_cons.1 hd with rfl | hd
    · simp [isNamePart, hc]
    · exact List.all_eq_true.1 hs d hd

theorem IsPlaceholder.ne_nil {token : Text} (h : IsPlaceholder token) : token ≠ [] := by
  obtain ⟨name, -, rfl⟩ := h
  simp

theorem IsPlaceholder.newline_not_mem {token : Text} (h : IsPlaceholder token) :
    '\n' ∉ token := by
  obtain ⟨name, hn, rfl⟩ := h
  intro hm
  have hname : '\n' ∈ name := by simpa using hm
  have := all_isNamePart_of_isName hn _ hname
  revert this
  decide

theorem IsPlaceholder.doubled_brace {token : Text} (h : IsPlaceholder token) :
    ['\x7b', '\x7b'] <:+: token := by
  obtain ⟨name, -, rfl⟩ := h
  exact ⟨[], name ++ ['\x7d', '\x7d'], by simp⟩

theorem isPlaceholder_typeToken : IsPlaceholder typeToken := ⟨"TYPE".toList, by decide, by decide⟩

theorem typeToken_not_leading {c : Char} (hc : c ≠ '\x7b') (s : Text) : ¬ typeToken <+: c :: s := by
  rintro ⟨t, e⟩
  exact hc (List.cons.inj e).1.symm

theorem substitute_typeToken_append {a : Text} (ha : '\x7b' ∉ a) (value s : Text) :
    Text.substitute typeToken value (a ++ s) = a ++ Text.substitute typeToken value s := by
  induction a with
  | nil => rfl
  | cons c a ih =>
    rw [List.mem_cons, not_or] at ha
    have hc := typeToken_not_leading (Ne.symm ha.1) (a ++ s)
    rw [List.cons_append, Text.substitute_cons hc, ih ha.2, List.cons_append]

/-! ### The scanner -/

theorem takeWhile_name {name rest : Text} (h : isName name = true) :
    (name ++ '\x7d' :: rest).takeWhile isNamePart = name := by
  rw [List.takeWhile_append_of_pos (all_isNamePart_of_isName h),
    List.takeWhile_cons_of_neg (by decide), List.append_nil]

theorem dropWhile_name {name rest : Text} (h : isName name = true) :
    (name ++ '\x7d' :: rest).dropWhile isNamePart = '\x7d' :: rest := by
  rw [List.dropWhile_append_of_pos (all_isNamePart_of_isName h),
    List.dropWhile_cons_of_neg (by decide)]

theorem leading?_append {token : Text} (h : IsPlaceholder token) (rest : Text) :
    leading? (token ++ rest) = some token := by
  obtain ⟨name, hn, rfl⟩ := h
  have e : ['\x7b', '\x7b'] ++ name ++ ['\x7d', '\x7d'] ++ rest =
      '\x7b' :: '\x7b' :: (name ++ '\x7d' :: '\x7d' :: rest) := by simp
  rw [e, leading?]
  simp [takeWhile_name hn, dropWhile_name hn, hn]

theorem leading?_sound {s token : Text} (h : leading? s = some token) :
    IsPlaceholder token ∧ token <+: s := by
  unfold leading? at h
  split at h
  · next s =>
    dsimp only at h
    split at h
    · next hif =>
      obtain ⟨hn, hclose⟩ := Bool.and_eq_true_iff.1 hif
      cases h
      obtain ⟨t, ht⟩ := List.isPrefixOf_iff_prefix.1 hclose
      refine ⟨⟨_, hn, rfl⟩, t, ?_⟩
      have hs := List.takeWhile_append_dropWhile (p := isNamePart) (l := s)
      rw [← ht] at hs
      simpa using hs
    · cases h
  · cases h

theorem first?_eq_none_iff {s : Text} : first? s = none ↔ ¬ Leftover s := by
  induction s with
  | nil =>
    refine iff_of_true rfl ?_
    rintro ⟨token, ht, hs⟩
    exact ht.ne_nil (List.infix_nil.1 hs)
  | cons c s ih =>
    rw [first?, Option.or_eq_none_iff, ih]
    constructor
    · rintro ⟨hlead, hrest⟩ ⟨token, ht, hs⟩
      rcases List.infix_cons_iff.1 hs with ⟨t, e⟩ | hs
      · rw [← e, leading?_append ht] at hlead
        cases hlead
      · exact hrest ⟨token, ht, hs⟩
    · intro h
      refine ⟨Option.eq_none_iff_forall_not_mem.2 fun token hm => ?_, ?_⟩
      · obtain ⟨ht, hp⟩ := leading?_sound hm
        exact h ⟨token, ht, hp.isInfix⟩
      · rintro ⟨token, ht, hs⟩
        exact h ⟨token, ht, List.infix_cons hs⟩

instance (s : Text) : Decidable (Leftover s) :=
  decidable_of_iff ((first? s).isSome = true) (by
    rw [← not_iff_not, ← first?_eq_none_iff, Bool.not_eq_true, Option.isSome_eq_false_iff,
      Option.isNone_iff_eq_none])

/-! ### Rendering -/

theorem render_eq_ok {name : Text} {key : Key} {s r : Text} :
    render name key s = .ok r ↔ r = Text.substitute typeToken name s ∧ ¬ Leftover r := by
  have hscan : render name key s = .ok r ↔
      r = Text.substitute typeToken name s ∧ first? (Text.substitute typeToken name s) = none := by
    rw [render]
    cases first? (Text.substitute typeToken name s) with
    | none => simp [eq_comm]
    | some token => simp
  rw [hscan]
  exact and_congr_right fun hr => by rw [← hr, first?_eq_none_iff]

theorem render_eq_error {name : Text} {key : Key} {s : Text} {f : Failure} :
    render name key s = .error f ↔ ∃ token,
      first? (Text.substitute typeToken name s) = some token ∧ f = .unresolved name key token := by
  rw [render]
  cases first? (Text.substitute typeToken name s) with
  | none => simp
  | some token => simp [eq_comm]

/-- The name token is a placeholder itself, so where none stands there is nothing to fill in. -/
theorem substitute_of_not_leftover {s : Text} (h : ¬ Leftover s) (name : Text) :
    Text.substitute typeToken name s = s :=
  Text.substitute_of_absent name fun hi => h ⟨typeToken, isPlaceholder_typeToken, hi⟩

/-! ### Seams -/

theorem leftover_append_newline {a b : Text} :
    Leftover (a ++ '\n' :: b) ↔ Leftover a ∨ Leftover b := by
  constructor
  · rintro ⟨token, ht, hs⟩
    rcases (Text.infix_append_cons_iff ht.newline_not_mem ht.ne_nil).1 hs with h | h
    · exact Or.inl ⟨token, ht, h⟩
    · exact Or.inr ⟨token, ht, h⟩
  · rintro (⟨token, ht, h⟩ | ⟨token, ht, h⟩)
    · exact ⟨token, ht, List.infix_append_of_infix_left h⟩
    · exact ⟨token, ht, List.infix_append_of_infix_right (List.infix_cons h)⟩

theorem leftover_lines {lines : List Text} :
    Leftover (['\n'].intercalate lines) ↔ ∃ line ∈ lines, Leftover line := by
  have key : ∀ {token : Text}, IsPlaceholder token →
      (token <:+: ['\n'].intercalate lines ↔ ∃ line ∈ lines, token <:+: line) := fun ht =>
    Text.infix_intercalate_iff (List.cons_ne_nil _ _)
      (List.forall_mem_singleton.2 ht.newline_not_mem) ht.ne_nil
  constructor
  · rintro ⟨token, ht, hs⟩
    obtain ⟨line, hl, h⟩ := (key ht).1 hs
    exact ⟨line, hl, token, ht, h⟩
  · rintro ⟨line, hl, token, ht, h⟩
    exact ⟨token, ht, (key ht).2 ⟨line, hl, h⟩⟩

/-- The one seam that can complete a placeholder. -/
theorem leftover_append_brace {s : Text} :
    Leftover (s ++ ['\x7d']) ↔ Leftover s ∨ OpenAtEnd s := by
  constructor
  · rintro ⟨token, ht, hs⟩
    rcases List.infix_concat_iff.1 hs with hsuf | h
    · obtain ⟨name, hn, rfl⟩ := ht
      have e : ['\x7b', '\x7b'] ++ name ++ ['\x7d', '\x7d'] =
          (['\x7b', '\x7b'] ++ name ++ ['\x7d']) ++ ['\x7d'] := by simp
      rw [e] at hsuf
      rcases List.suffix_concat_iff.1 hsuf with hnil | ⟨t, ht, hsuf⟩
      · simp at hnil
      · exact Or.inr ⟨name, hn, (List.append_cancel_right ht) ▸ hsuf⟩
    · exact Or.inl ⟨token, ht, h⟩
  · rintro (⟨token, ht, h⟩ | ⟨name, hn, t, rfl⟩)
    · exact ⟨token, ht, List.infix_append_of_infix_left h⟩
    · exact ⟨['\x7b', '\x7b'] ++ name ++ ['\x7d', '\x7d'], ⟨name, hn, rfl⟩, t, [], by simp⟩

/-- A placeholder needs two opening braces side by side. -/
theorem not_leftover_of_absent {s : Text} (h : ¬ ['\x7b', '\x7b'] <:+: s) : ¬ Leftover s := by
  rintro ⟨token, ht, hs⟩
  exact h (ht.doubled_brace.trans hs)

theorem not_leftover_of_not_mem {s : Text} (h : '\x7b' ∉ s) : ¬ Leftover s :=
  not_leftover_of_absent fun hs => h (hs.subset (by simp))

end TypedId.Placeholder
