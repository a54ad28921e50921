import TypedId.Proofs.Generation

/-!
# Texts that hold only the name's braces

Where double braces stand in a text only as name tokens, no name leaves one. Such texts can be put
together at line ends and at other characters that the name token lacks.
-/

namespace TypedId

open Placeholder Text

namespace Text

/-- A text that ends in a line end. -/
def EndsLine (s : Text) : Prop := ∃ front, s = front ++ ['\n']

theorem EndsLine.append {a b : Text} (h : EndsLine b) : EndsLine (a ++ b) := by
  obtain ⟨front, rfl⟩ := h
  exact ⟨a ++ front, (List.append_assoc _ _ _).symm⟩

theorem EndsLine.cons {c : Char} {s : Text} (h : EndsLine s) : EndsLine (c :: s) :=
  EndsLine.append (a := [c]) h

theorem substitute_of_endsLine {token : Text} (hne : token ≠ []) (hline : '\n' ∉ token)
    (value : Text) {a : Text} (h : EndsLine a) (b : Text) :
    substitute token value (a ++ b) = substitute token value a ++ substitute token value b := by
  obtain ⟨front, rfl⟩ := h
  exact substitute_append hne value (not_straddles_concat hline front b)

theorem EndsLine.intercalate {sep : Text} {texts : List Text} (hne : texts ≠ [])
    (h : ∀ t ∈ texts, EndsLine t) : EndsLine (sep.intercalate texts) :=
  intercalate_induction (fun _ _ hb => hb.append) hne h

/-- Whole lines after each other are worked on one by one. -/
theorem substitute_flatten {token : Text} (hne : token ≠ []) (hline : '\n' ∉ token) (value : Text)
    {texts : List Text} (h : ∀ t ∈ texts, EndsLine t) :
    substitute token value texts.flatten = (texts.map (substitute token value)).flatten := by
  induction texts with
  | nil => exact substitute_nil token value
  | cons t texts ih =>
    obtain ⟨ht, hrest⟩ := List.forall_mem_cons.1 h
    rw [List.flatten_cons, substitute_of_endsLine hne hline value ht, ih hrest, List.map_cons,
      List.flatten_cons]

end Text

namespace Placeholder

/-! ### Texts that hold no braces but the name's -/

/-- Double braces stand in a text only as name tokens: no name leaves one. -/
def NameOnly (s : Text) : Prop :=
  ∀ n, isIdentifier n = true → ¬ ['\x7b', '\x7b'] <:+: substitute typeToken n s

theorem ne_brace_of_isIdentifier {n : Text} (hn : isIdentifier n = true) :
    ∀ c ∈ n, c ∉ ['\x7b', '\x7b'] := by
  intro c hc hm
  obtain rfl : c = '\x7b' := by simpa using hm
  exact not_mem_of_isIdentifier hn (by decide) hc

theorem nameOnly_iff {s : Text} :
    NameOnly s ↔ (pieces typeToken s).all (fun p => !occursIn ['\x7b', '\x7b'] p) = true := by
  have key : ∀ n, isIdentifier n = true → (['\x7b', '\x7b'] <:+: substitute typeToken n s ↔
      ∃ p ∈ pieces typeToken s, ['\x7b', '\x7b'] <:+: p) := by
    intro n hn
    exact infix_intercalate_iff (ne_nil_of_isIdentifier hn) (ne_brace_of_isIdentifier hn) (by decide)
  have hall : (pieces typeToken s).all (fun p => !occursIn ['\x7b', '\x7b'] p) = true ↔
      ¬ ∃ p ∈ pieces typeToken s, ['\x7b', '\x7b'] <:+: p := by
    simp [← occursIn_iff_infix]
  rw [hall]
  constructor
  · intro h
    rw [← key ['x'] (by decide)]
    exact h ['x'] (by decide)
  · intro h n hn
    rwa [key n hn]

instance (s : Text) : Decidable (NameOnly s) := decidable_of_iff _ nameOnly_iff.symm

theorem nameOnly_nil : NameOnly [] := by decide

/-- Texts that are set apart by a character that the name token lacks keep to themselves. -/
theorem nameOnly_append_cons {a b : Text} {c : Char} (hc : c ∉ typeToken) :
    NameOnly (a ++ c :: b) ↔ NameOnly a ∧ NameOnly b := by
  have hopen : c ∉ ['\x7b', '\x7b'] := fun h => by
    obtain rfl : c = '\x7b' := by simpa using h
    exact hc (by decide)
  have key : ∀ n, ['\x7b', '\x7b'] <:+: substitute typeToken n (a ++ c :: b) ↔
      ['\x7b', '\x7b'] <:+: substitute typeToken n a ∨
        ['\x7b', '\x7b'] <:+: substitute typeToken n b := by
    intro n
    rw [substitute_append_cons isPlaceholder_typeToken.ne_nil hc,
      infix_append_cons_iff hopen (by decide)]
  simp only [NameOnly, key, not_or]
  exact ⟨fun h => ⟨fun n hn => (h n hn).1, fun n hn => (h n hn).2⟩, fun h n hn => ⟨h.1 n hn, h.2 n hn⟩⟩

theorem newline_not_mem_typeToken : '\n' ∉ typeToken := isPlaceholder_typeToken.newline_not_mem

theorem NameOnly.append {a b : Text} (ha : NameOnly a) (hb : NameOnly b) (h : EndsLine a) :
    NameOnly (a ++ b) := by
  obtain ⟨front, rfl⟩ := h
  have hfront := ((nameOnly_append_cons newline_not_mem_typeToken).1 ha).1
  rw [List.append_assoc, List.singleton_append]
  exact (nameOnly_append_cons newline_not_mem_typeToken).2 ⟨hfront, hb⟩

theorem nameOnly_flatten {texts : List Text} (h : ∀ t ∈ texts, NameOnly t ∧ EndsLine t) :
    NameOnly texts.flatten := by
  induction texts with
  | nil => exact nameOnly_nil
  | cons t texts ih =>
    obtain ⟨⟨ht, hline⟩, hrest⟩ := List.forall_mem_cons.1 h
    rw [List.flatten_cons]
    exact ht.append (ih hrest) hline

theorem NameOnly.append_append {sep : Text} (hsep : sep ≠ []) (h : ∀ c ∈ sep, c ∉ typeToken)
    {a b : Text} (ha : NameOnly a) (hb : NameOnly b) : NameOnly (a ++ sep ++ b) := by
  induction sep generalizing a with
  | nil => exact absurd rfl hsep
  | cons c sep ih =>
    obtain ⟨hc, hrest⟩ := List.forall_mem_cons.1 h
    rw [List.append_assoc, List.cons_append, nameOnly_append_cons hc]
    refine ⟨ha, ?_⟩
    by_cases hs : sep = []
    · rwa [hs, List.nil_append]
    · exact ih hs hrest nameOnly_nil

theorem nameOnly_intercalate {sep : Text} (hsep : sep ≠ []) (h : ∀ c ∈ sep, c ∉ typeToken)
    {texts : List Text} (ht : ∀ t ∈ texts, NameOnly t) : NameOnly (sep.intercalate texts) := by
  induction texts with
  | nil => exact nameOnly_nil
  | cons a texts ih =>
    obtain ⟨ha, hrest⟩ := List.forall_mem_cons.1 ht
    cases texts with
    | nil => rwa [List.intercalate_singleton]
    | cons b texts =>
      rw [List.intercalate_cons_cons]
      exact ha.append_append hsep h (ih hrest)

theorem NameOnly.not_leftover {s : Text} (h : NameOnly s) {n : Text} (hn : isIdentifier n = true) :
    ¬ Leftover (substitute typeToken n s) :=
  not_leftover_of_absent (h n hn)

theorem NameOnly.render {s : Text} (h : NameOnly s) {n : Text} (hn : isIdentifier n = true)
    (key : Key) : render n key s = .ok (substitute typeToken n s) :=
  render_eq_ok.2 ⟨rfl, h.not_leftover hn⟩

/-- A name that has been filled in is not filled in again. -/
theorem NameOnly.substitute_twice {s : Text} (h : NameOnly s) {n : Text}
    (hn : isIdentifier n = true) :
    substitute typeToken n (substitute typeToken n s) = substitute typeToken n s :=
  substitute_of_not_leftover (h.not_leftover hn) n

/-- A text that holds no braces but the name's has no slot, if the slot shares no end with the
name token. -/
theorem NameOnly.slot_absent {slot s : Text} (h : NameOnly s) (hopen : ['\x7b', '\x7b'] <:+: slot)
    (hslot : ¬ typeToken <:+: slot) (hlen : typeToken.length ≤ slot.length)
    (hfront : ∀ k < typeToken.length, 0 < k → ¬ typeToken.take k <:+ slot)
    (hback : ∀ k < typeToken.length, 0 < k → ¬ typeToken.drop k <+: slot) : ¬ slot <:+: s := by
  have hne := isPlaceholder_typeToken.ne_nil
  rintro ⟨a, b, rfl⟩
  have hab : ¬ Straddles typeToken a (slot ++ b) := by
    refine not_straddles_of_drop fun k hk hpos hp => hback k hk hpos ?_
    have hshort : (typeToken.drop k).length ≤ slot.length := by
      rw [List.length_drop]
      omega
    exact List.prefix_of_prefix_length_le hp (List.prefix_append _ _) hshort
  have hsb : ¬ Straddles typeToken slot b := not_straddles_of_take hfront
  have hx := h ['x'] (by decide)
  rw [List.append_assoc, substitute_append hne _ hab, substitute_append hne _ hsb,
    substitute_of_absent _ hslot] at hx
  exact hx (List.infix_append_of_infix_right (List.infix_append_of_infix_left hopen))

theorem NameOnly.not_interfacesToken {s : Text} (h : NameOnly s) : ¬ interfacesToken <:+: s :=
  h.slot_absent (by decide) (by decide) (by decide) (by decide) (by decide)

theorem NameOnly.not_validateToken {s : Text} (h : NameOnly s) : ¬ validateToken <:+: s :=
  h.slot_absent (by decide) (by decide) (by decide) (by decide) (by decide)

end Placeholder

end TypedId
