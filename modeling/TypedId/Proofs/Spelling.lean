import TypedId.Proofs.Authored
import TypedId.Proofs.Generation
import TypedId.Proofs.Nesting

/-!
# Spelled lines

What the authored lines say once the marks are read and the type's name is known. The built-in
fragments are whole lines of balanced braces, and stay so under every name.
-/

namespace TypedId.Builtin

open Placeholder Text Outline

/-! ### Spelling -/

/-- An authored line under a type's name. -/
def spell (b : Backing) (n s : Text) : Text := s.flatMap fun c => if c = '§' then n else expand b c

theorem spell_cons (b : Backing) (n : Text) (c : Char) (s : Text) :
    spell b n (c :: s) = (if c = '§' then n else expand b c) ++ spell b n s := rfl

theorem spell_append (b : Backing) (n s t : Text) :
    spell b n (s ++ t) = spell b n s ++ spell b n t := List.flatMap_append

theorem spell_cons_of_not_isMark (b : Backing) (n : Text) {c : Char} (h : isMark c = false)
    (s : Text) : spell b n (c :: s) = c :: spell b n s := by
  have hname : c ≠ '§' := by
    rintro rfl
    cases h
  rw [spell_cons, if_neg hname, expand_of_not_isMark b h, List.singleton_append]

theorem spell_eq_self (b : Backing) (n : Text) {s : Text} (h : s.any isMark = false) :
    spell b n s = s := by
  induction s with
  | nil => rfl
  | cons c s ih =>
    obtain ⟨hc, hs⟩ := Bool.or_eq_false_iff.1 h
    rw [spell_cons_of_not_isMark b n hc, ih hs]

theorem spell_flatten (b : Backing) (n : Text) (lines : Lines) :
    (lines.map (spell b n)).flatten = spell b n lines.flatten := by
  induction lines with
  | nil => rfl
  | cons s lines ih => rw [List.map_cons, List.flatten_cons, List.flatten_cons, ih, spell_append]

/-- What a mark stands for, the name apart. -/
def meanings (b : Backing) : Text := b.primitive.toList ++ b.zero.toList

theorem avoids_spell {b : Backing} {n s bad : Text} (hs : Avoids s bad) (hn : Avoids n bad)
    (hb : Avoids (meanings b) bad) : Avoids (spell b n s) bad := by
  intro c hc hmem
  obtain ⟨d, hd, hmem⟩ := List.mem_flatMap.1 hmem
  split at hmem
  · exact hn c hc hmem
  · next hname =>
    rw [expand, if_neg hname] at hmem
    split at hmem
    · exact hb c hc (List.mem_append_left _ hmem)
    · split at hmem
      · exact hb c hc (List.mem_append_right _ hmem)
      · rw [List.mem_singleton.1 hmem] at hc
        exact hs d hc hd

theorem avoids_meanings (b : Backing) :
    Avoids (meanings b) [' ', '\n', '\r', '\x7b', '\x7d'] := by
  cases b <;> decide

theorem substitute_line (b : Backing) (n : Text) {s : Text} (h : isSober s = true) :
    substitute typeToken n (line b s) = spell b n s := by
  induction s with
  | nil => exact substitute_nil _ _
  | cons c s ih =>
    obtain ⟨hhead, hrest⟩ := Bool.and_eq_true_iff.1 h
    rw [line_cons, spell_cons, ← ih hrest]
    by_cases hname : c = '§'
    · subst hname
      exact substitute_token_append isPlaceholder_typeToken.ne_nil n _
    · rw [if_neg hname]
      by_cases hc : c = '\x7b'
      · -- the brace stands alone, so no token starts with it
        subst hc
        rw [expand_of_not_isMark b (by decide), List.singleton_append, List.singleton_append]
        refine substitute_cons (fun hp => ?_) n
        cases s with
        | nil => exact absurd hp (by decide : ¬ typeToken <+: ['\x7b'])
        | cons d s =>
          have hd : d ≠ '\x7b' ∧ isMark d = false := by simpa using hhead
          rw [line_cons_of_not_isMark b hd.2] at hp
          obtain ⟨t, e⟩ := hp
          exact hd.1 (List.cons.inj (List.cons.inj e).2).1.symm
      · have hplain : '\x7b' ∉ expand b c := by
          have hmeanings := avoids_meanings b '\x7b' (by simp)
          rw [expand, if_neg hname]
          split
          · exact fun hm => hmeanings (List.mem_append_left _ hm)
          · split
            · exact fun hm => hmeanings (List.mem_append_right _ hm)
            · simpa using Ne.symm hc
        exact substitute_typeToken_append hplain n _

theorem substitute_written (b : Backing) (n : Text) {lines : Lines}
    (h : lines.all isSober = true) :
    substitute typeToken n (written b lines) = ofLines (lines.map (spell b n)) := by
  induction lines with
  | nil => exact substitute_nil _ _
  | cons s lines ih =>
    rw [List.all_cons, Bool.and_eq_true_iff] at h
    have hcons : written b (s :: lines) = line b s ++ '\n' :: written b lines := by
      simp [written]
    rw [hcons, substitute_append_cons isPlaceholder_typeToken.ne_nil newline_not_mem_typeToken,
      substitute_line b n h.1, ih h.2, List.map_cons, ofLines_cons]

/-! ### What spelling keeps -/

/-- Lines with no line ends in them, of which the braces are balanced. -/
def Neat (lines : Lines) : Prop := (∀ s ∈ lines, IsLine s) ∧ BraceBalanced lines.flatten

-- line by line, so that no check goes deeper than a line is long
instance (lines : Lines) : Decidable (Neat lines) :=
  decidable_of_iff ((∀ s ∈ lines, IsLine s) ∧ lines.foldlM depthAfter 0 = some 0) (by
    rw [Neat, BraceBalanced, depthAfter_flatten])

/-- A line that is empty or opens with a blank or a brace. -/
def Inset : Text → Prop
  | [] => True
  | c :: _ => c ∈ [' ', '\x7b', '\x7d']

instance : DecidablePred Inset
  | [] => isTrue trivial
  | c :: _ => inferInstanceAs (Decidable (c ∈ _))

theorem Inset.head?_ne {s : Text} (h : Inset s) : s.head? ≠ some 'c' := by
  cases s with
  | nil => simp
  | cons c s =>
    intro e
    obtain rfl := Option.some.inj e
    exact (by decide : 'c' ∉ [' ', '\x7b', '\x7d']) h

variable {b : Backing} {n : Text}

theorem isLine_spell (hn : isIdentifier n = true) {s : Text} (h : IsLine s) :
    IsLine (spell b n s) :=
  avoids_spell h (avoids_of_isIdentifier hn (by decide)) ((avoids_meanings b).mono (by simp))

theorem depthAfter_spell (hn : isIdentifier n = true) (depth : Nat) (s : Text) :
    depthAfter depth (spell b n s) = depthAfter depth s := by
  have hname : Avoids n ['\x7b', '\x7d'] := avoids_of_isIdentifier hn (by decide)
  have hmeanings : Avoids (meanings b) ['\x7b', '\x7d'] := (avoids_meanings b).mono (by simp)
  induction s generalizing depth with
  | nil => rfl
  | cons c s ih =>
    cases hmark : isMark c with
    | false =>
      simp only [spell_cons_of_not_isMark b n hmark, depthAfter, ih]
    | true =>
      -- the mark is no brace, and stands for a text without braces
      have hc : Avoids [c] ['\x7b', '\x7d'] := by
        refine avoids_cons.2 ⟨fun hbrace => ?_, fun _ _ => List.not_mem_nil⟩
        rcases List.mem_cons.1 hbrace with rfl | hbrace
        · cases hmark
        · rw [List.mem_singleton.1 hbrace] at hmark
          cases hmark
      have hsplit : spell b n (c :: s) = spell b n [c] ++ spell b n s := spell_append b n [c] s
      rw [hsplit, depthAfter_append_of_avoids (avoids_spell hc hname hmeanings), ih]
      exact (depthAfter_append_of_avoids hc depth s).symm

theorem Neat.spell (hn : isIdentifier n = true) {lines : Lines} (h : Neat lines) :
    Neat (lines.map (spell b n)) := by
  refine ⟨List.forall_mem_map.2 fun s hs => isLine_spell hn (h.1 s hs), ?_⟩
  rw [spell_flatten, BraceBalanced, depthAfter_spell hn]
  exact h.2

theorem Inset.spell {s : Text} (h : Inset s) : Inset (spell b n s) := by
  cases s with
  | nil => exact h
  | cons c s =>
    have hc : isMark c = false := by
      have hmarks : [' ', '\x7b', '\x7d'].any isMark = false := by decide
      exact Bool.eq_false_iff.2 (List.any_eq_false.1 hmarks c h)
    rw [spell_cons_of_not_isMark b n hc]
    exact h

end TypedId.Builtin
