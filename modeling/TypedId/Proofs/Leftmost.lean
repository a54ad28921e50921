import TypedId.Proofs.Scanner

/-!
# The leftmost place

Searching a text gives what stands in it and starts leftmost. The placeholder scanner is exact in
this sense, whatever other braces are around. Going from one opening pair of braces to the next,
and from each only to the closing pair that comes first, finds the same placeholder.
-/

namespace TypedId

namespace Text

/-- In the text something with the property stands between `before` and `after`, and nothing with
the property starts further left. -/
structure Leftmost (P : Text → Prop) (s before found after : Text) : Prop where
  split : s = before ++ (found ++ after)
  holds : P found
  least : ∀ before' found' after', s = before' ++ (found' ++ after') → P found' →
    before.length ≤ before'.length

namespace Leftmost

variable {P : Text → Prop} {c : Char} {s before found after : Text}

theorem here (hp : P found) (after : Text) : Leftmost P (found ++ after) [] found after :=
  ⟨rfl, hp, fun _ _ _ _ _ => Nat.zero_le _⟩

theorem eq_nil (h : Leftmost P s before found after) {found' after' : Text}
    (hs : s = found' ++ after') (hp : P found') : before = [] := by
  have hle := h.least [] found' after' hs hp
  exact List.length_eq_zero_iff.1 (Nat.le_zero.1 hle)

/-- Where nothing with the property starts at the first character, the search goes on behind it. -/
theorem cons_iff (hc : ∀ f a, c :: s = f ++ a → ¬ P f) :
    Leftmost P (c :: s) before found after ↔ ∃ b, before = c :: b ∧ Leftmost P s b found after := by
  constructor
  · intro h
    have hsplit := h.split
    cases before with
    | nil => exact absurd h.holds (hc found after hsplit)
    | cons d b =>
      obtain ⟨hd, hs⟩ := List.cons.inj hsplit
      refine ⟨b, by rw [hd], hs, h.holds, fun b' f a hs' hf => ?_⟩
      have hle := h.least (c :: b') f a (by rw [hs', List.cons_append]) hf
      simpa using hle
  · intro ⟨b, hb, h⟩
    refine ⟨by rw [hb, h.split, List.cons_append], h.holds, fun b' f a hs hf => ?_⟩
    cases b' with
    | nil => exact absurd hf (hc f a hs)
    | cons d b' =>
      have hle := h.least b' f a (List.cons.inj hs).2 hf
      simpa [hb] using hle

/-- For a needle this means that the text does not open with it. -/
theorem needle_cons_iff {needle : Text} (h : ¬ needle <+: c :: s) :
    Leftmost (· = needle) (c :: s) before needle after ↔
      ∃ b, before = c :: b ∧ Leftmost (· = needle) s b needle after :=
  cons_iff fun f a hs hf => h ⟨a, by rw [← hf, hs]⟩

/-- A needle is found in one place at most. -/
theorem unique {needle before' after' : Text} (h : Leftmost (· = needle) s before needle after)
    (h' : Leftmost (· = needle) s before' needle after') : before = before' ∧ after = after' := by
  have hle := h.least before' needle after' h'.split rfl
  have hle' := h'.least before needle after h.split rfl
  have hlength : before.length = before'.length := by omega
  obtain ⟨hbefore, hrest⟩ := List.append_inj (h.split.symm.trans h'.split) hlength
  exact ⟨hbefore, List.append_cancel_left hrest⟩

end Leftmost

/-- Cutting a text at a needle cuts it at the leftmost place. -/
theorem splitFirst?_eq_some_iff {needle : Text} (hne : needle ≠ []) {s before after : Text} :
    splitFirst? needle s = some (before, after) ↔
      Leftmost (· = needle) s before needle after := by
  induction s generalizing before with
  | nil =>
    have hnone : splitFirst? needle [] = none := by simp [splitFirst?, hne]
    rw [hnone]
    refine iff_of_false (by simp) fun h => hne ?_
    have hnil := List.append_eq_nil_iff.1 (List.append_eq_nil_iff.1 h.split.symm).2
    exact hnil.1
  | cons c s ih =>
    rw [splitFirst?]
    cases hp : needle.isPrefixOf? (c :: s) with
    | some rest =>
      have hs : c :: s = needle ++ rest := (List.isPrefixOf?_eq_some_iff_append_eq.1 hp).symm
      have hfirst : Leftmost (· = needle) (c :: s) [] needle rest := by
        rw [hs]
        exact Leftmost.here (P := (· = needle)) rfl rest
      constructor
      · intro h
        obtain ⟨rfl, rfl⟩ := Prod.mk.inj (Option.some.inj h)
        exact hfirst
      · intro h
        obtain ⟨rfl, rfl⟩ := hfirst.unique h
        rfl
    | none =>
      have hc : ¬ needle <+: c :: s := by
        rintro ⟨rest, hrest⟩
        rw [List.isPrefixOf?_eq_some_iff_append_eq.2 hrest] at hp
        cases hp
      rw [Leftmost.needle_cons_iff hc]
      simp only [← ih, Option.map_eq_some_iff, Prod.exists, Prod.mk.injEq]
      constructor
      · rintro ⟨b, a, hcut, hb, ha⟩
        exact ⟨b, hb.symm, ha ▸ hcut⟩
      · rintro ⟨b, hb, hcut⟩
        exact ⟨b, after, hcut, hb.symm, rfl⟩

theorem splitFirst?_of_absent {needle s : Text} (h : ¬ needle <:+: s) :
    splitFirst? needle s = none := by
  rw [← occursIn_iff_infix, occursIn, Bool.not_eq_true, Option.isSome_eq_false_iff,
    Option.isNone_iff_eq_none] at h
  exact h

theorem splitFirst?_append {needle : Text} (hne : needle ≠ []) {a b : Text} (ha : ¬ needle <:+: a)
    (hseam : ¬ Straddles needle a (needle ++ b)) :
    splitFirst? needle (a ++ (needle ++ b)) = some (a, b) := by
  induction a with
  | nil =>
    obtain ⟨c, n, rfl⟩ := List.exists_cons_of_ne_nil hne
    have hfound : (c :: n).isPrefixOf? (c :: n ++ b) = some b :=
      List.isPrefixOf?_eq_some_iff_append_eq.2 rfl
    rw [List.cons_append] at hfound
    rw [List.nil_append, List.cons_append, splitFirst?, hfound]
  | cons c a ih =>
    rw [List.infix_cons_iff, not_or] at ha
    have hnone : needle.isPrefixOf? (c :: (a ++ (needle ++ b))) = none := by
      rw [Option.eq_none_iff_forall_ne_some]
      intro rest hrest
      have hp : needle <+: c :: a ++ (needle ++ b) :=
        ⟨rest, List.isPrefixOf?_eq_some_iff_append_eq.1 hrest⟩
      exact ha.1 (prefix_of_not_straddles (List.cons_ne_nil c a) hseam hp)
    have hseam' : ¬ Straddles needle a (needle ++ b) := fun h => hseam (h.cons c)
    rw [List.cons_append, splitFirst?, hnone, ih ha.2 hseam']
    rfl

/-- What the needle's first character does not stand in, the needle does not start in. -/
theorem splitFirst?_of_not_mem {c : Char} {a : Text} (h : c ∉ a) (needle b : Text) :
    splitFirst? (c :: needle) (a ++ (c :: needle ++ b)) = some (a, b) := by
  refine splitFirst?_append (List.cons_ne_nil c needle) ?_ ?_
  · intro hi
    exact h (hi.subset List.mem_cons_self)
  · intro ⟨l, r, hl, _, hsplit, hsuffix, _⟩
    obtain ⟨d, l, rfl⟩ := List.exists_cons_of_ne_nil hl
    have hd : c = d := (List.cons.inj hsplit).1
    exact h (hsuffix.subset (hd ▸ List.mem_cons_self))

end Text

namespace Placeholder

open Text

/-! ### The first placeholder -/

theorem leading?_eq_some_iff {s token : Text} :
    leading? s = some token ↔ IsPlaceholder token ∧ token <+: s := by
  constructor
  · exact leading?_sound
  · intro ⟨htoken, rest, hs⟩
    rw [← hs, leading?_append htoken]

theorem first?_eq_some_iff {s token : Text} :
    first? s = some token ↔ ∃ before after, Leftmost IsPlaceholder s before token after := by
  induction s with
  | nil =>
    refine iff_of_false (by simp [first?]) ?_
    rintro ⟨before, after, h⟩
    exact h.holds.ne_nil (List.append_eq_nil_iff.1 (List.append_eq_nil_iff.1 h.split.symm).2).1
  | cons c s ih =>
    rw [first?]
    cases hlead : leading? (c :: s) with
    | some first =>
      obtain ⟨hfirst, rest, hs⟩ := leading?_sound hlead
      rw [Option.some_or, Option.some_inj]
      constructor
      · intro h
        subst h
        exact ⟨[], rest, hs ▸ .here hfirst rest⟩
      · rintro ⟨before, after, h⟩
        -- both start at the first character, where only one placeholder starts
        obtain rfl := h.eq_nil hs.symm hfirst
        have htoken := leading?_append h.holds after
        rw [← List.nil_append (token ++ after), ← h.split, hlead] at htoken
        exact Option.some.inj htoken
    | none =>
      have hc : ∀ f a, c :: s = f ++ a → ¬ IsPlaceholder f := by
        intro f a hs hf
        rw [hs, leading?_append hf] at hlead
        cases hlead
      rw [Option.none_or, ih]
      simp only [Leftmost.cons_iff hc]
      constructor
      · rintro ⟨b, a, h⟩
        exact ⟨c :: b, a, b, rfl, h⟩
      · rintro ⟨_, a, b, _, h⟩
        exact ⟨b, a, h⟩

theorem isSome_first?_iff {s : Text} : (first? s).isSome = true ↔ Leftover s := by
  rw [Option.isSome_iff_ne_none, ne_eq, first?_eq_none_iff, not_not]

/-! ### From pair to pair -/

def openPair : Text := ['\x7b', '\x7b']

def closePair : Text := ['\x7d', '\x7d']

/-- What stands before the first closing pair of a text, in braces, if it is a name. -/
def enclosed? (rest : Text) : Option Text :=
  (splitFirst? closePair rest).bind fun cut =>
    if isName cut.1 then some (openPair ++ cut.1 ++ closePair) else none

theorem length_lt_of_openPair {s before rest : Text}
    (h : splitFirst? openPair s = some (before, rest)) : rest.length + 1 < s.length := by
  have hsplit := ((splitFirst?_eq_some_iff (List.cons_ne_nil _ _)).1 h).split
  have hlength := congrArg List.length hsplit
  simp only [List.length_append, List.length_cons, List.length_nil] at hlength
  omega

/-- Looks at what each opening pair encloses, up to the first that encloses a name. The second brace
of a pair can be the first of the next. -/
def search? (s : Text) : Option Text :=
  match h : splitFirst? openPair s with
  | none => none
  | some (_, rest) =>
    have := length_lt_of_openPair h
    (enclosed? rest).or (search? ('\x7b' :: rest))
termination_by s.length

theorem search?_of_none {s : Text} (h : splitFirst? openPair s = none) : search? s = none := by
  rw [search?]
  split
  · rfl
  · next hsome =>
    rw [h] at hsome
    cases hsome

theorem search?_of_some {s before rest : Text}
    (h : splitFirst? openPair s = some (before, rest)) :
    search? s = (enclosed? rest).or (search? ('\x7b' :: rest)) := by
  rw [search?]
  split
  · next hnone =>
    rw [h] at hnone
    cases hnone
  · next hsome =>
    rw [h] at hsome
    obtain ⟨-, hrest⟩ := Prod.mk.inj (Option.some.inj hsome)
    rw [hrest]

/-- A character that opens no pair is passed over. -/
theorem search?_cons {c : Char} {s : Text} (h : ¬ openPair <+: c :: s) :
    search? (c :: s) = search? s := by
  have hp : openPair.isPrefixOf? (c :: s) = none := by
    rw [Option.eq_none_iff_forall_ne_some]
    intro rest hrest
    exact h ⟨rest, List.isPrefixOf?_eq_some_iff_append_eq.1 hrest⟩
  have hcut : splitFirst? openPair (c :: s) =
      (splitFirst? openPair s).map fun cut => (c :: cut.1, cut.2) := by
    rw [splitFirst?, hp]
  cases hs : splitFirst? openPair s with
  | none =>
    rw [hs] at hcut
    rw [search?_of_none hs, search?_of_none hcut]
  | some cut =>
    rw [hs] at hcut
    rw [search?_of_some hs, search?_of_some hcut]

theorem search?_pair (rest : Text) :
    search? (openPair ++ rest) = (enclosed? rest).or (search? ('\x7b' :: rest)) := by
  have hfirst := Leftmost.here (P := (· = openPair)) rfl rest
  exact search?_of_some ((splitFirst?_eq_some_iff (List.cons_ne_nil _ _)).2 hfirst)

/-- The closing pair that comes first after a name is the one that follows it. -/
theorem splitFirst?_closePair {name : Text} (h : isName name = true) (rest : Text) :
    splitFirst? closePair (name ++ (closePair ++ rest)) = some (name, rest) := by
  apply splitFirst?_of_not_mem
  intro hmem
  have hpart := all_isNamePart_of_isName h _ hmem
  revert hpart
  decide

theorem enclosed?_eq_leading? (rest : Text) : enclosed? rest = leading? (openPair ++ rest) := by
  ext token
  rw [leading?_eq_some_iff, enclosed?, Option.bind_eq_some_iff]
  constructor
  · intro ⟨⟨name, after⟩, hcut, hname⟩
    have hrest := ((splitFirst?_eq_some_iff (List.cons_ne_nil _ _)).1 hcut).split
    split at hname
    · next hn =>
      obtain rfl := Option.some.inj hname
      refine ⟨⟨name, hn, rfl⟩, after, ?_⟩
      rw [hrest, List.append_assoc, List.append_assoc]
      rfl
    · cases hname
  · intro ⟨⟨name, hn, htoken⟩, after, hrest⟩
    have hsplit : rest = name ++ (closePair ++ after) := by
      rw [htoken, List.append_assoc, List.append_assoc] at hrest
      exact (List.append_cancel_left hrest).symm
    refine ⟨(name, after), hsplit ▸ splitFirst?_closePair hn after, ?_⟩
    rw [if_pos hn, htoken]
    rfl

/-- Going from pair to pair misses no placeholder and finds none too early. -/
theorem search?_eq_first? (s : Text) : search? s = first? s := by
  induction s with
  | nil => exact search?_of_none rfl
  | cons c s ih =>
    rw [first?, ← ih]
    by_cases hp : openPair <+: c :: s
    · obtain ⟨rest, hrest⟩ := hp
      have hs : '\x7b' :: rest = s := (List.cons.inj hrest).2
      rw [← hrest, search?_pair, enclosed?_eq_leading?, hs]
    · have hnone : leading? (c :: s) = none := by
        rw [Option.eq_none_iff_forall_ne_some]
        intro token htoken
        obtain ⟨⟨name, -, hbraces⟩, hprefix⟩ := leading?_sound htoken
        rw [hbraces, List.append_assoc] at hprefix
        exact hp ((List.prefix_append _ _).trans hprefix)
      rw [search?_cons hp, hnone, Option.none_or]

/-- The scanner finds something exactly where a placeholder stands in the text, and it is the one
that starts leftmost; looking from each opening pair to the closing pair that comes first finds
the same. -/
theorem leftmost_exact (s : Text) :
    ((first? s).isSome = true ↔ Leftover s) ∧
    (∀ token, first? s = some token ↔
      ∃ before after, Leftmost IsPlaceholder s before token after) ∧
    search? s = first? s :=
  ⟨isSome_first?_iff, fun _ => first?_eq_some_iff, search?_eq_first? s⟩

example : first? "\x7b\x7b\x7b\x7blow\x7d\x7d\x7b\x7b\x7bA_1\x7d\x7d\x7d".toList =
    some "\x7b\x7bA_1\x7d\x7d".toList := by decide

end Placeholder
end TypedId
