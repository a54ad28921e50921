import Mathlib.Data.List.TakeWhile
import TypedId.Text.Line
import TypedId.Proofs.Generation

/-!
# Lines and words

A text written line by line reads back as its lines. White space at the ends of a text and between
its words, and the leftmost place of a needle, are found where they were put.
-/

namespace TypedId.Text

theorem mem_intercalate {α : Type} {sep : List α} {parts : List (List α)} {a : α}
    (h : a ∈ sep.intercalate parts) : a ∈ sep ∨ ∃ p ∈ parts, a ∈ p := by
  induction parts with
  | nil => cases h
  | cons p parts ih =>
    cases parts with
    | nil =>
      rw [List.intercalate_singleton] at h
      exact Or.inr ⟨p, List.mem_cons_self, h⟩
    | cons q parts =>
      rw [List.intercalate_cons_cons, List.mem_append, List.mem_append] at h
      rcases h with (h | h) | h
      · exact Or.inr ⟨p, List.mem_cons_self, h⟩
      · exact Or.inl h
      · rcases ih h with h | ⟨r, hr, ha⟩
        · exact Or.inl h
        · exact Or.inr ⟨r, List.mem_cons_of_mem p hr, ha⟩

theorem intercalate_cons_flatMap {α : Type} (sep : α) (p : List α) (parts : List (List α)) :
    [sep].intercalate (p :: parts) = p ++ parts.flatMap (sep :: ·) := by
  induction parts generalizing p with
  | nil => simp
  | cons q parts ih =>
    rw [List.intercalate_cons_cons, ih, List.flatMap_cons, List.append_assoc]
    rfl

/-! ### Characters that stay out -/

/-- None of the given characters stands in the text. -/
def Avoids (s bad : Text) : Prop := ∀ c ∈ bad, c ∉ s

-- named, since there are finitely many characters, and to try them all is an instance too
instance (s bad : Text) : Decidable (Avoids s bad) := List.decidableBAll (fun c => c ∉ s) bad

theorem avoids_cons {c : Char} {s bad : Text} :
    Avoids (c :: s) bad ↔ c ∉ bad ∧ Avoids s bad := by
  constructor
  · intro h
    refine ⟨fun hc => h c hc List.mem_cons_self, fun d hd hmem => ?_⟩
    exact h d hd (List.mem_cons_of_mem c hmem)
  · rintro ⟨hc, hs⟩ d hd hmem
    rcases List.mem_cons.1 hmem with rfl | hmem
    · exact hc hd
    · exact hs d hd hmem

theorem Avoids.mono {s bad bad' : Text} (h : Avoids s bad) (hsub : bad' ⊆ bad) : Avoids s bad' :=
  fun c hc => h c (hsub hc)

theorem Avoids.append {s t bad : Text} (hs : Avoids s bad) (ht : Avoids t bad) :
    Avoids (s ++ t) bad := fun c hc hmem =>
  (List.mem_append.1 hmem).elim (hs c hc) (ht c hc)

theorem Avoids.intercalate {sep bad : Text} (hsep : Avoids sep bad) {parts : List Text}
    (h : ∀ p ∈ parts, Avoids p bad) : Avoids (sep.intercalate parts) bad := by
  intro c hc hmem
  rcases mem_intercalate hmem with hmem | ⟨p, hp, hmem⟩
  · exact hsep c hc hmem
  · exact h p hp c hc hmem

theorem avoids_of_isIdentifier {n bad : Text} (hn : isIdentifier n = true)
    (hbad : bad.any isIdentifierPart = false) : Avoids n bad := fun c hc =>
  not_mem_of_isIdentifier hn (Bool.eq_false_iff.2 (List.any_eq_false.1 hbad c hc))

/-! ### Lines -/

/-- The text of some lines, each ended by a line feed. -/
def ofLines (lines : List Text) : Text := lines.flatMap (· ++ ['\n'])

/-- A text without line ends. -/
def IsLine (s : Text) : Prop := Avoids s ['\n', '\r']

instance (s : Text) : Decidable (IsLine s) := inferInstanceAs (Decidable (Avoids _ _))

@[simp] theorem ofLines_nil : ofLines [] = [] := rfl

theorem ofLines_cons (line : Text) (lines : List Text) :
    ofLines (line :: lines) = line ++ '\n' :: ofLines lines := by
  simp [ofLines]

@[simp] theorem ofLines_append (a b : List Text) : ofLines (a ++ b) = ofLines a ++ ofLines b :=
  List.flatMap_append

theorem ofLines_singleton (line : Text) : ofLines [line] = line ++ ['\n'] := List.append_nil _

/-- The last line feed is a separator before an empty text. -/
theorem ofLines_eq_intercalate (lines : List Text) :
    ofLines lines = ['\n'].intercalate (lines ++ [[]]) := by
  induction lines with
  | nil => rfl
  | cons line lines ih =>
    rw [ofLines_cons, ih, List.cons_append, List.intercalate_cons_of_ne_nil (by simp)]
    simp

theorem dropReturn_of_not_mem {s : Text} (h : '\r' ∉ s) : dropReturn s = s :=
  if_neg fun hlast => h (List.mem_of_getLast? hlast)

theorem lines_of_not_mem {line : Text} (h : '\n' ∉ line) (hne : line ≠ []) : lines line = [line] := by
  rw [lines, List.splitOn_eq_singleton h]
  simp [hne]

theorem lines_cons {line : Text} (h : '\n' ∉ line) (s : Text) :
    lines (line ++ '\n' :: s) = dropReturn line :: lines s := by
  obtain ⟨first, rest, hs⟩ := List.exists_cons_of_ne_nil (List.splitOn_ne_nil '\n' s)
  rw [lines, lines, List.splitOn_append_cons_self_of_not_mem h, hs]
  simp

theorem lines_ofLines_append {front : List Text} (h : ∀ l ∈ front, '\n' ∉ l) (s : Text) :
    lines (ofLines front ++ s) = front.map dropReturn ++ lines s := by
  induction front with
  | nil => rfl
  | cons l front ih =>
    obtain ⟨hl, hfront⟩ := List.forall_mem_cons.1 h
    rw [ofLines_cons, List.append_assoc, List.cons_append, lines_cons hl, ih hfront, List.map_cons,
      List.cons_append]

theorem lines_ofLines {l : List Text} (h : ∀ s ∈ l, IsLine s) : lines (ofLines l) = l := by
  have hkept : l.map dropReturn = l := by
    conv_rhs => rw [← List.map_id l]
    exact List.map_congr_left fun s hs => dropReturn_of_not_mem (h s hs '\r' (by simp))
  have hlines := lines_ofLines_append (fun s hs => h s hs '\n' (by simp)) []
  have hnone : lines [] = [] := rfl
  rwa [List.append_nil, hkept, hnone, List.append_nil] at hlines

theorem ofLines_inj {l l' : List Text} (h : ∀ s ∈ l, IsLine s) (h' : ∀ s ∈ l', IsLine s)
    (e : ofLines l = ofLines l') : l = l' := by
  rw [← lines_ofLines h, e, lines_ofLines h']

/-- Texts set apart by an empty line are the text of the lines set apart by an empty one. -/
theorem intercalate_map_ofLines (groups : List (List Text)) :
    ['\n'].intercalate (groups.map ofLines) = ofLines ([[]].intercalate groups) := by
  induction groups with
  | nil => rfl
  | cons g groups ih =>
    cases groups with
    | nil => simp
    | cons g' groups =>
      rw [List.map_cons, List.map_cons, List.intercalate_cons_cons, List.intercalate_cons_cons,
        ← List.map_cons, ih, ofLines_append, ofLines_append, ofLines_singleton, List.nil_append]

/-! ### White space -/

theorem isInfix_trim (s : Text) : trim s <:+: s := by
  have hfront : (s.dropWhile isBlank).reverse.dropWhile isBlank <:+ (s.dropWhile isBlank).reverse :=
    List.dropWhile_suffix _
  have hkept : trim s <+: s.dropWhile isBlank := by
    rw [← List.reverse_suffix, trim, dropEndWhile, List.reverse_reverse]
    exact hfront
  exact hkept.isInfix.trans (List.dropWhile_suffix _).isInfix

/-- A text with no white space at its ends. -/
structure Trimmed (s : Text) : Prop where
  first : ∀ c ∈ s.head?, isBlank c = false
  last : ∀ c ∈ s.getLast?, isBlank c = false

theorem dropWhile_of_head? {s : Text} (h : ∀ c ∈ s.head?, isBlank c = false) :
    s.dropWhile isBlank = s := by
  cases s with
  | nil => rfl
  | cons c s => rw [List.dropWhile_cons_of_neg (by simp [h c rfl])]

theorem Trimmed.trim_eq {s : Text} (h : Trimmed s) : trim s = s := by
  have hlast : ∀ c ∈ s.reverse.head?, isBlank c = false := by
    rw [List.head?_reverse]
    exact h.last
  rw [trim, dropWhile_of_head? h.first, dropEndWhile, dropWhile_of_head? hlast,
    List.reverse_reverse]

theorem trim_blank_cons {c : Char} (hc : isBlank c = true) (s : Text) : trim (c :: s) = trim s := by
  rw [trim, List.dropWhile_cons_of_pos hc, trim]

theorem trim_concat_blank {c : Char} (hc : isBlank c = true) (s : Text) :
    trim (s ++ [c]) = trim s := by
  rw [trim, trim, List.dropWhile_append]
  split
  · next hblank =>
    rw [List.isEmpty_iff.1 hblank, List.dropWhile_cons_of_pos hc, List.dropWhile_nil]
  · rw [dropEndWhile, dropEndWhile, List.reverse_append, List.reverse_singleton,
      List.singleton_append, List.dropWhile_cons_of_pos hc]

theorem trim_dropReturn (line : Text) : trim (dropReturn line) = trim line := by
  rw [dropReturn]
  split
  · next hlast =>
    obtain ⟨init, hinit⟩ := List.getLast?_eq_some_iff.1 hlast
    rw [hinit, List.dropLast_concat, trim_concat_blank (by decide)]
  · rfl

/-- The text ends, or goes on with the end of a line. -/
def AtLineEnd (after : Text) : Prop :=
  after = [] ∨ ['\n'] <+: after ∨ ['\r', '\n'] <+: after

theorem AtLineEnd.exists_lines {line after : Text} (hafter : AtLineEnd after) (h : '\n' ∉ line)
    (hne : line ≠ []) : ∃ first rest, lines (line ++ after) = first :: rest ∧
      trim first = trim line := by
  rcases hafter with hnil | ⟨rest, hrest⟩ | ⟨rest, hrest⟩
  · refine ⟨line, [], ?_, rfl⟩
    rw [hnil, List.append_nil, lines_of_not_mem h hne]
  · refine ⟨dropReturn line, lines rest, ?_, trim_dropReturn line⟩
    rw [← hrest, List.singleton_append, lines_cons h]
  · have hreturn : '\n' ∉ line ++ ['\r'] := by
      rw [List.mem_append, not_or]
      exact ⟨h, by decide⟩
    refine ⟨dropReturn (line ++ ['\r']), lines rest, ?_, ?_⟩
    · rw [← lines_cons hreturn, ← hrest, List.append_assoc]
      rfl
    · rw [trim_dropReturn, trim_concat_blank (by decide)]

theorem exists_last_append (a : Text) {b : Text}
    (h : ∃ c, b.getLast? = some c ∧ isBlank c = false) :
    ∃ c, (a ++ b).getLast? = some c ∧ isBlank c = false := by
  obtain ⟨c, hc, hblank⟩ := h
  exact ⟨c, by rw [List.getLast?_append, hc, Option.some_or], hblank⟩

/-- White space between two texts sets the words of one apart from those of the other. -/
theorem words_append_blank_cons (s : Text) {c : Char} (hc : isBlank c = true) (t : Text) :
    words (s ++ c :: t) = words s ++ words t := by
  rw [words, List.splitOnP_append_cons s t hc, List.filter_append, words, words]

theorem words_of_not_blank {w : Text} (hne : w ≠ []) (hw : w.any isBlank = false) :
    words w = [w] := by
  have hkept : ∀ c ∈ w, isBlank c = false := fun c hc =>
    Bool.eq_false_iff.2 (List.any_eq_false.1 hw c hc)
  rw [words, List.splitOnP_eq_singleton hkept]
  simp [hne]

theorem words_append_cons {w : Text} (hne : w ≠ []) (hw : w.any isBlank = false) {c : Char}
    (hc : isBlank c = true) (s : Text) : words (w ++ c :: s) = w :: words s := by
  rw [words_append_blank_cons w hc, words_of_not_blank hne hw, List.singleton_append]

/-- White space in front of a text belongs to no word. -/
theorem words_blank_append {gap : Text} (hgap : gap.all isBlank = true) (s : Text) :
    words (gap ++ s) = words s := by
  induction gap with
  | nil => rfl
  | cons c gap ih =>
    simp only [List.all_cons, Bool.and_eq_true] at hgap
    have hcut := words_append_blank_cons [] hgap.1 (gap ++ s)
    rw [List.cons_append, ← ih hgap.2]
    simpa [words] using hcut

theorem isBlank_of_isIdentifierPart {c : Char} (h : isIdentifierPart c = true) :
    isBlank c = false := by
  have hpart : isIdentifierPart c = (((decide (65 ≤ c.val ∧ c.val ≤ 90) ||
      97 ≤ c.val && c.val ≤ 122) || 48 ≤ c.val && c.val ≤ 57) || c = '_') := rfl
  have hrange : ((65 ≤ c.toNat ∧ c.toNat ≤ 90 ∨ 97 ≤ c.toNat ∧ c.toNat ≤ 122) ∨
      48 ≤ c.toNat ∧ c.toNat ≤ 57) ∨ c = '_' := by
    rw [hpart] at h
    simp only [Bool.or_eq_true, Bool.and_eq_true, decide_eq_true_eq, UInt32.le_iff_toNat_le] at h
    exact h
  rcases hrange with hrange | rfl
  · simp only [isBlank, inRanges, blankRanges, List.any_cons, List.any_nil, Bool.or_false,
      Bool.or_eq_false_iff, Bool.and_eq_false_iff, decide_eq_false_iff_not]
    omega
  · decide

theorem any_isBlank_of_all {s : Text} (h : s.all isIdentifierPart = true) :
    s.any isBlank = false := by
  refine List.any_eq_false.2 fun c hc => ?_
  rw [isBlank_of_isIdentifierPart (List.all_eq_true.1 h c hc)]
  exact Bool.false_ne_true

end TypedId.Text
