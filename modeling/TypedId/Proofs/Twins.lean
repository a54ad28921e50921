import TypedId.Proofs.Generation

/-!
# Twin texts

Twins are the same text but for one name here where another stands there. Names hold no braces, so
braces stand at the same places in twins, and both hold a placeholder or neither does, provided
that the two names can stand inside placeholders in the same way.
-/

namespace TypedId

open Placeholder

namespace Text

/-- The second text has `m` at some places where the first has `n`. -/
inductive Twins (n m : Text) : Text → Text → Prop
  | nil : Twins n m [] []
  | char (c : Char) {s t : Text} : Twins n m s t → Twins n m (c :: s) (c :: t)
  | name {s t : Text} : Twins n m s t → Twins n m (n ++ s) (m ++ t)

namespace Twins

variable {n m s t : Text}

theorem symm (h : Twins n m s t) : Twins m n t s := by
  induction h with
  | nil => exact .nil
  | char c _ ih => exact .char c ih
  | name _ ih => exact .name ih

theorem append {a b : Text} (h : Twins n m s t) (h' : Twins n m a b) :
    Twins n m (s ++ a) (t ++ b) := by
  induction h with
  | nil => exact h'
  | char c _ ih => exact .char c ih
  | name _ ih =>
    rw [List.append_assoc, List.append_assoc]
    exact .name ih

theorem flatten {l r : List Text} (h : List.Forall₂ (Twins n m) l r) :
    Twins n m l.flatten r.flatten := by
  induction h with
  | nil => exact .nil
  | cons hst _ ih =>
    rw [List.flatten_cons, List.flatten_cons]
    exact hst.append ih

/-- Twin values put into one text make twins. -/
theorem substitute_value {token : Text} (hne : token ≠ []) (h : Twins n m s t) (text : Text) :
    Twins n m (substitute token s text) (substitute token t text) := by
  induction text using walk_induction hne with
  | nil =>
    rw [substitute_nil, substitute_nil]
    exact .nil
  | token_append text ih =>
    rw [substitute_token_append hne, substitute_token_append hne]
    exact h.append ih
  | cons c text hc ih =>
    rw [substitute_cons hc, substitute_cons hc]
    exact .char c ih

/-- The two names themselves, put into one text. -/
theorem substitute_names {token : Text} (hne : token ≠ []) (text : Text) :
    Twins n m (substitute token n text) (substitute token m text) := by
  have h : Twins n m (n ++ []) (m ++ []) := .name .nil
  rw [List.append_nil, List.append_nil] at h
  exact h.substitute_value hne text

/-! ### Braces -/

/-- A character that the name lacks is a character of its own. -/
theorem of_cons {c : Char} (hn : n ≠ []) (hc : c ∉ n) (h : Twins n m (c :: s) t) :
    ∃ t', t = c :: t' ∧ Twins n m s t' := by
  generalize e : c :: s = u at h
  cases h with
  | nil => cases e
  | char d h =>
    cases e
    exact ⟨_, rfl, h⟩
  | name h =>
    obtain ⟨x, n', rfl⟩ := List.exists_cons_of_ne_nil hn
    rw [List.cons_append] at e
    exact absurd ((List.cons.inj e).1 ▸ List.mem_cons_self) hc

/-- A word before a character that the name lacks is a word of its own if the name is no part of
it. -/
theorem of_word {w : Text} {c : Char} (hn : n ≠ []) (hc : c ∉ n) (hw : ¬ n <:+: w)
    (h : Twins n m (w ++ c :: s) t) : ∃ t', t = w ++ c :: t' ∧ Twins n m s t' := by
  induction w generalizing t with
  | nil => exact of_cons hn hc h
  | cons x w ih =>
    rw [List.infix_cons_iff, not_or] at hw
    generalize e : x :: w ++ c :: s = u at h
    cases h with
    | nil => cases e
    | char d h =>
      obtain ⟨rfl, rfl⟩ := List.cons.inj e
      obtain ⟨t', rfl, ht⟩ := ih hw.2 h
      exact ⟨t', rfl, ht⟩
    | name h =>
      rcases List.append_eq_append_iff.1 e with ⟨b, hb, hcs⟩ | ⟨a, ha, -⟩
      · cases b with
        | nil => exact absurd (by rw [hb, List.append_nil]) hw.1
        | cons y b =>
          have hy : c = y := (List.cons.inj hcs).1
          exact absurd (hb ▸ hy ▸ List.mem_append_right _ List.mem_cons_self) hc
      · exact absurd ⟨a, ha.symm⟩ hw.1

/-- The name token stands at the front of both twins or of neither. -/
theorem of_typeToken (hn : isIdentifier n = true) (ht : ¬ n <:+: "TYPE".toList)
    (h : Twins n m (typeToken ++ s) t) : ∃ t', t = typeToken ++ t' ∧ Twins n m s t' := by
  have hne := ne_nil_of_isIdentifier hn
  have hopen : '\x7b' ∉ n := not_mem_of_isIdentifier hn (by decide)
  have hclose : '\x7d' ∉ n := not_mem_of_isIdentifier hn (by decide)
  have e : ∀ u : Text, typeToken ++ u =
      '\x7b' :: '\x7b' :: ("TYPE".toList ++ '\x7d' :: '\x7d' :: u) := fun _ => rfl
  rw [e] at h
  obtain ⟨t1, rfl, h1⟩ := of_cons hne hopen h
  obtain ⟨t2, rfl, h2⟩ := of_cons hne hopen h1
  obtain ⟨t3, rfl, h3⟩ := of_word hne hclose ht h2
  obtain ⟨t4, rfl, h4⟩ := of_cons hne hclose h3
  exact ⟨t4, (e t4).symm, h4⟩

theorem prefix_typeToken (hn : isIdentifier n = true) (ht : ¬ n <:+: "TYPE".toList)
    (h : Twins n m s t) (hp : typeToken <+: s) : typeToken <+: t := by
  obtain ⟨s', rfl⟩ := hp
  obtain ⟨t', rfl, -⟩ := of_typeToken hn ht h
  exact List.prefix_append _ _

end Twins

/-- Putting each name into its own twin gives twins again. -/
theorem Twins.substitute {n m s t : Text} (hn : isIdentifier n = true)
    (hm : isIdentifier m = true) (htn : ¬ n <:+: "TYPE".toList) (htm : ¬ m <:+: "TYPE".toList)
    (h : Twins n m s t) :
    Twins n m (Text.substitute typeToken n s) (Text.substitute typeToken m t) := by
  have hne : typeToken ≠ [] := isPlaceholder_typeToken.ne_nil
  -- the walk jumps over a token, so the length of the text carries the induction
  induction hl : s.length using Nat.strongRecOn generalizing s t with
  | _ k ih =>
    subst hl
    by_cases hp : typeToken <+: s
    · obtain ⟨s', rfl⟩ := hp
      obtain ⟨t', rfl, h'⟩ := Twins.of_typeToken hn htn h
      rw [substitute_token_append hne, substitute_token_append hne]
      have hlt : s'.length < (typeToken ++ s').length := by
        rw [List.length_append]
        exact Nat.lt_add_of_pos_left (List.length_pos_iff.2 hne)
      exact .name (ih _ hlt h' rfl)
    · have hp' : ¬ typeToken <+: t := fun h2 => hp (Twins.prefix_typeToken hm htm h.symm h2)
      cases h with
      | nil =>
        rw [substitute_nil, substitute_nil]
        exact .nil
      | char c h =>
        rw [substitute_cons hp, substitute_cons hp']
        exact .char c (ih _ (Nat.lt_succ_self _) h rfl)
      | @name s t h =>
        rw [substitute_typeToken_append (not_mem_of_isIdentifier hn (by decide)),
          substitute_typeToken_append (not_mem_of_isIdentifier hm (by decide))]
        have hlt : s.length < (n ++ s).length := by
          rw [List.length_append]
          exact Nat.lt_add_of_pos_left (List.length_pos_iff.2 (ne_nil_of_isIdentifier hn))
        exact .name (ih _ hlt h rfl)

end Text

/-! ### Scanning twins -/

namespace Placeholder

open Text

/-- Whether a run of name characters and two closing braces open a text. -/
def closes (s : Text) : Bool := ['\x7d', '\x7d'].isPrefixOf (s.dropWhile isNamePart)

theorem closes_cons_of_part {c : Char} (h : isNamePart c = true) (s : Text) :
    closes (c :: s) = closes s := by
  rw [closes, List.dropWhile_cons_of_pos h, closes]

theorem closes_cons_of_not_part {c : Char} (h : isNamePart c = false) (s : Text) :
    closes (c :: s) = (c == '\x7d' && s.head? == some '\x7d') := by
  rw [closes, List.dropWhile_cons_of_neg (by simp [h])]
  cases s <;> simp [List.isPrefixOf, Bool.beq_comm]

theorem closes_append {n : Text} (hn : '\x7d' ∉ n) (s : Text) :
    closes (n ++ s) = (n.all isNamePart && closes s) := by
  induction n with
  | nil => rfl
  | cons c n ih =>
    rw [List.mem_cons, not_or] at hn
    cases hc : isNamePart c with
    | true => rw [List.cons_append, closes_cons_of_part hc, ih hn.2, List.all_cons, hc, Bool.true_and]
    | false =>
      have hne : (c == '\x7d') = false := beq_eq_false_iff_ne.2 (Ne.symm hn.1)
      rw [List.cons_append, closes_cons_of_not_part hc, List.all_cons, hc, hne]
      rfl

theorem isName_takeWhile (s : Text) :
    isName (s.takeWhile isNamePart) = s.head?.any Char.isUpper := by
  cases s with
  | nil => rfl
  | cons c s =>
    cases hc : isNamePart c with
    | true =>
      rw [List.takeWhile_cons_of_pos hc, isName, List.head?_cons, Option.any_some]
      simp
    | false =>
      have hu : c.isUpper = false := by
        simp only [isNamePart, Bool.or_eq_false_iff] at hc
        exact hc.1.1
      rw [List.takeWhile_cons_of_neg (by simp [hc]), isName, List.head?_cons, Option.any_some, hu]

/-- What makes the text after two opening braces a placeholder. -/
theorem leading?_isSome (s : Text) :
    (leading? ('\x7b' :: '\x7b' :: s)).isSome = (s.head?.any Char.isUpper && closes s) := by
  rw [leading?, isName_takeWhile]
  change Option.isSome (if (s.head?.any Char.isUpper && closes s) = true then _ else none) = _
  split
  · next h =>
    rw [h]
    rfl
  · next h =>
    rw [Bool.not_eq_true] at h
    rw [h]
    rfl

theorem leading?_eq_none_of_ne {c : Char} (h : c ≠ '\x7b') (s : Text) :
    leading? (c :: s) = none := by
  unfold leading?
  split
  · next e => exact absurd (List.cons.inj e).1 h
  · rfl

theorem leading?_eq_none_of_second_ne {c d : Char} (h : d ≠ '\x7b') (s : Text) :
    leading? (c :: d :: s) = none := by
  unfold leading?
  split
  · next e => exact absurd (List.cons.inj (List.cons.inj e).2).1 h
  · rfl

theorem first?_append {n : Text} (hn : '\x7b' ∉ n) (s : Text) : first? (n ++ s) = first? s := by
  induction n with
  | nil => rfl
  | cons c n ih =>
    rw [List.mem_cons, not_or] at hn
    rw [List.cons_append, first?, leading?_eq_none_of_ne (Ne.symm hn.1), Option.none_or, ih hn.2]

end Placeholder

namespace Text.Twins

variable {n m s t : Text}

theorem head?_eq_some_iff {c : Char} (hn : n ≠ []) (hm : m ≠ []) (hcn : c ∉ n) (hcm : c ∉ m)
    (h : Twins n m s t) : s.head? = some c ↔ t.head? = some c := by
  obtain ⟨x, n', rfl⟩ := List.exists_cons_of_ne_nil hn
  obtain ⟨y, m', rfl⟩ := List.exists_cons_of_ne_nil hm
  rw [List.mem_cons, not_or] at hcn hcm
  cases h with
  | nil => exact Iff.rfl
  | char d h => exact Iff.rfl
  | name h => simp [Ne.symm hcn.1, Ne.symm hcm.1]

theorem closes_eq (hn : isIdentifier n = true) (hm : isIdentifier m = true)
    (hall : n.all isNamePart = m.all isNamePart) (h : Twins n m s t) : closes s = closes t := by
  have hcn : '\x7d' ∉ n := not_mem_of_isIdentifier hn (by decide)
  have hcm : '\x7d' ∉ m := not_mem_of_isIdentifier hm (by decide)
  induction h with
  | nil => rfl
  | char c h ih =>
    cases hc : isNamePart c with
    | true => rw [closes_cons_of_part hc, closes_cons_of_part hc, ih]
    | false =>
      have hhead := h.head?_eq_some_iff (ne_nil_of_isIdentifier hn) (ne_nil_of_isIdentifier hm) hcn hcm
      rw [closes_cons_of_not_part hc, closes_cons_of_not_part hc]
      simp only [Bool.beq_eq_decide_eq, hhead]
  | name h ih => rw [closes_append hcn, closes_append hcm, hall, ih]

theorem leads_eq (hn : isIdentifier n = true) (hm : isIdentifier m = true)
    (hall : n.all isNamePart = m.all isNamePart) (hname : isName n = isName m)
    (h : Twins n m s t) :
    (s.head?.any Char.isUpper && closes s) = (t.head?.any Char.isUpper && closes t) := by
  have hcl := h.closes_eq hn hm hall
  cases h with
  | nil => rfl
  | char c h => rw [hcl]; rfl
  | @name s t h =>
    have hopen : closes (n ++ s) = (n.all isNamePart && closes s) :=
      closes_append (not_mem_of_isIdentifier hn (by decide)) s
    rw [← hcl]
    cases hc : closes (n ++ s) with
    | false => simp
    | true =>
      rw [hc] at hopen
      have hn' : n.all isNamePart = true := (Bool.and_eq_true_iff.1 hopen.symm).1
      have hm' := hall ▸ hn'
      obtain ⟨x, n, rfl⟩ := List.exists_cons_of_ne_nil (ne_nil_of_isIdentifier hn)
      obtain ⟨y, m, rfl⟩ := List.exists_cons_of_ne_nil (ne_nil_of_isIdentifier hm)
      rw [List.all_cons, Bool.and_eq_true_iff] at hn' hm'
      rw [isName, isName, hn'.2, hm'.2, Bool.and_true, Bool.and_true] at hname
      simp [hname]

theorem leading?_isSome_eq (hn : isIdentifier n = true) (hm : isIdentifier m = true)
    (hall : n.all isNamePart = m.all isNamePart) (hname : isName n = isName m)
    (h : Twins n m s t) (c : Char) :
    (leading? (c :: s)).isSome = (leading? (c :: t)).isSome := by
  have hnn := ne_nil_of_isIdentifier hn
  have hmn := ne_nil_of_isIdentifier hm
  have hbn : '\x7b' ∉ n := not_mem_of_isIdentifier hn (by decide)
  have hbm : '\x7b' ∉ m := not_mem_of_isIdentifier hm (by decide)
  by_cases hc : c = '\x7b'
  · subst hc
    have hhead := h.head?_eq_some_iff hnn hmn hbn hbm
    by_cases hs : s.head? = some '\x7b'
    · obtain ⟨s, rfl⟩ := List.head?_eq_some_iff.1 hs
      obtain ⟨t, rfl, h'⟩ := of_cons hnn hbn h
      rw [leading?_isSome, leading?_isSome, h'.leads_eq hn hm hall hname]
    · have ht : t.head? ≠ some '\x7b' := fun e => hs (hhead.2 e)
      have none_of : ∀ u : Text, u.head? ≠ some '\x7b' → leading? ('\x7b' :: u) = none := by
        intro u hu
        cases u with
        | nil => rfl
        | cons d u => exact leading?_eq_none_of_second_ne (fun e => hu (by rw [e]; rfl)) u
      rw [none_of s hs, none_of t ht]
  · rw [leading?_eq_none_of_ne hc, leading?_eq_none_of_ne hc]

/-- The scan of twins finds a placeholder in both or in neither. -/
theorem leftover_iff (hn : isIdentifier n = true) (hm : isIdentifier m = true)
    (hall : n.all isNamePart = m.all isNamePart) (hname : isName n = isName m)
    (h : Twins n m s t) : Leftover s ↔ Leftover t := by
  have hfirst : (first? s).isSome = (first? t).isSome := by
    induction h with
    | nil => rfl
    | char c h ih =>
      rw [first?, first?, Option.isSome_or, Option.isSome_or, ih,
        h.leading?_isSome_eq hn hm hall hname]
    | name h ih =>
      rw [first?_append (not_mem_of_isIdentifier hn (by decide)),
        first?_append (not_mem_of_isIdentifier hm (by decide)), ih]
  have hnone : first? s = none ↔ first? t = none := by
    rw [← Option.not_isSome_iff_eq_none, ← Option.not_isSome_iff_eq_none, hfirst]
  rw [first?_eq_none_iff, first?_eq_none_iff] at hnone
  exact not_iff_not.1 hnone

end Text.Twins
end TypedId
