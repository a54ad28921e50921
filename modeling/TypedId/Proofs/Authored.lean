import TypedId.Builtin
import TypedId.Proofs.Draft

/-!
# Authored lines

The built-in fragments are written as lines with marks. Where no opening brace of a line stands
before another one or a mark, the text that the lines stand for holds no braces but the name's.
-/

namespace TypedId.Builtin

open Placeholder Text

/-! ### From lines to texts -/

/-- A mark, which stands for something else. -/
def isMark (c : Char) : Bool := c = '§' || c = '¤' || c = '∅'

/-- Whether opening braces stand only before characters that are neither braces nor marks. -/
def isSober : Text → Bool
  | [] => true
  | c :: s => (c ≠ '\x7b' || !s.head?.any fun d => d = '\x7b' || isMark d) && isSober s

theorem expand_of_not_isMark (b : Backing) {c : Char} (h : isMark c = false) : expand b c = [c] := by
  simp only [isMark, Bool.or_eq_false_iff, decide_eq_false_iff_not] at h
  rw [expand, if_neg h.1.1, if_neg h.1.2, if_neg h.2]

theorem line_cons (b : Backing) (c : Char) (s : Text) :
    line b (c :: s) = expand b c ++ line b s := rfl

theorem line_cons_of_not_isMark (b : Backing) {c : Char} (h : isMark c = false) (s : Text) :
    line b (c :: s) = c :: line b s := by
  rw [line_cons, expand_of_not_isMark b h, List.singleton_append]

theorem nameOnly_cons {c : Char} (hc : c ≠ '\x7b') {s : Text} (h : NameOnly s) : NameOnly (c :: s) := by
  intro n hn hi
  rw [substitute_cons (typeToken_not_leading hc s)] at hi
  rcases List.infix_cons_iff.1 hi with ⟨t, e⟩ | hi
  · exact hc (List.cons.inj e).1.symm
  · exact h n hn hi

theorem nameOnly_append {a s : Text} (ha : '\x7b' ∉ a) (h : NameOnly s) : NameOnly (a ++ s) := by
  induction a with
  | nil => exact h
  | cons c a ih =>
    rw [List.mem_cons, not_or] at ha
    exact nameOnly_cons (Ne.symm ha.1) (ih ha.2)

theorem nameOnly_brace_cons {c : Char} (hc : c ≠ '\x7b') {s : Text} (h : NameOnly (c :: s)) :
    NameOnly ('\x7b' :: c :: s) := by
  have hp : ¬ typeToken <+: '\x7b' :: c :: s := by
    rintro ⟨t, e⟩
    exact hc (List.cons.inj (List.cons.inj e).2).1.symm
  have hp' := typeToken_not_leading hc s
  intro n hn hi
  have hcs := h n hn
  rw [substitute_cons hp, substitute_cons hp'] at hi
  rw [substitute_cons hp'] at hcs
  rcases List.infix_cons_iff.1 hi with ⟨t, e⟩ | hi
  · exact hc (List.cons.inj (List.cons.inj e).2).1.symm
  · exact hcs hi

theorem nameOnly_typeToken_append {s : Text} (h : NameOnly s) : NameOnly (typeToken ++ s) := by
  intro n hn hi
  rw [substitute_token_append isPlaceholder_typeToken.ne_nil, ← List.nil_append n,
    infix_append_append_iff (ne_nil_of_isIdentifier hn) (ne_brace_of_isIdentifier hn)
      (by decide)] at hi
  exact hi.elim (fun hi => absurd hi (by decide)) (h n hn)

theorem nameOnly_expand_append (b : Backing) {c : Char} (hc : c ≠ '\x7b') {s : Text}
    (h : NameOnly s) : NameOnly (expand b c ++ s) := by
  unfold expand
  split
  · exact nameOnly_typeToken_append h
  · split
    · exact nameOnly_append (by cases b <;> decide) h
    · split
      · exact nameOnly_append (by cases b <;> decide) h
      · exact nameOnly_cons hc h

theorem nameOnly_line (b : Backing) {s : Text} (h : isSober s = true) : NameOnly (line b s) := by
  induction s with
  | nil => exact nameOnly_nil
  | cons c s ih =>
    obtain ⟨hhead, hrest⟩ := Bool.and_eq_true_iff.1 h
    have hs := ih hrest
    rw [line_cons]
    by_cases hc : c = '\x7b'
    · subst hc
      rw [expand_of_not_isMark b (by decide)]
      cases s with
      | nil => exact (by decide : NameOnly ['\x7b'])
      | cons d s =>
        have hd : d ≠ '\x7b' ∧ isMark d = false := by simpa using hhead
        rw [line_cons_of_not_isMark b hd.2] at hs ⊢
        exact nameOnly_brace_cons hd.1 hs
    · exact nameOnly_expand_append b hc hs

theorem nameOnly_written (b : Backing) {lines : Lines} (h : lines.all isSober = true) :
    NameOnly (written b lines) := by
  induction lines with
  | nil => exact nameOnly_nil
  | cons s lines ih =>
    rw [List.all_cons, Bool.and_eq_true_iff] at h
    rw [written, List.flatMap_cons, List.append_assoc, List.singleton_append,
      nameOnly_append_cons newline_not_mem_typeToken]
    exact ⟨nameOnly_line b h.1, ih h.2⟩

theorem endsLine_written (b : Backing) {lines : Lines} (h : lines ≠ []) :
    EndsLine (written b lines) := by
  induction lines with
  | nil => exact absurd rfl h
  | cons s lines ih =>
    rw [written, List.flatMap_cons]
    cases lines with
    | nil => exact ⟨line b s, List.append_nil _⟩
    | cons s' lines => exact (ih (List.cons_ne_nil s' lines)).append

theorem all_isSober_indent (lines : Lines) : (indent lines).all isSober = lines.all isSober := by
  induction lines with
  | nil => rfl
  | cons s lines ih =>
    rw [indent, List.map_cons, List.all_cons, List.all_cons, ← indent, ih]
    cases s <;> rfl

theorem indent_ne_nil {lines : Lines} (h : lines ≠ []) : indent lines ≠ [] := by
  simpa [indent] using h

theorem block_ne_nil (head : Text) (body : Lines) : block head body ≠ [] := by
  simp [block]

theorem choice_ne_nil (head : Text) (arms : Lines) : choice head arms ≠ [] := by
  simp [choice]

theorem paragraphs_ne_nil (g g' : Lines) (groups : List Lines) :
    paragraphs (g :: g' :: groups) ≠ [] := by
  simp [paragraphs]

/-! ### The lines of the fragments -/

theorem all_isSober_implementations (s : Storage) :
    (equatable s).all isSober = true ∧ (comparable s).all isSober = true ∧
      (parsable s).all isSober = true ∧ formattable.all isSober = true ∧
      comparisonOperators.all isSober = true ∧ notNegative.all isSober = true ∧
      notNull.all isSober = true := by
  cases s
  all_goals
    simp only [equatable, equalsMember, hashMember, comparable, parsable, providerParse,
      providerTryParse, providerTryParseBody, formattable, comparisonOperators, notNegative, notNull]
    -- a literal spelled out as its characters is quick to check, its bytes are not
    repeat rw [String.toList_ofList]
    decide

theorem all_isSober_converters (s : Storage) :
    (newtonsoft s).all isSober = true ∧ (componentModel s).all isSober = true ∧
      entityFramework.all isSober = true ∧ (dapper s).all isSober = true := by
  cases s
  all_goals
    simp only [newtonsoft, newtonsoftRead, componentModel, canConvertFrom, convertFromArms,
      canConvertTo, convertToCases, entityFramework, dapper, dapperSet, dapperArms]
    repeat rw [String.toList_ofList]
    decide

theorem all_isSober_systemText (b : Backing) : (systemText b).all isSober = true := by
  cases b
  all_goals
    simp only [systemText, nullHandling, jsonRead, jsonWrite, Backing.storage]
    repeat rw [String.toList_ofList]
    decide

/-! ### Fragments -/

theorem tidy_sibling {b : Backing} {lines : Lines} (h : lines.all isSober = true) :
    ({ sibling := written b lines } : Fragment).Tidy where
  sections t ht := by
    obtain rfl : t = written b lines := by simpa [Fragment.sections] using ht
    exact nameOnly_written b h
  members t ht := by cases ht
  hook t ht := by cases ht

theorem tidy_announced {b : Backing} {a : Text} {lines : Lines} (h : lines.all isSober = true)
    (ha : isSober a = true) :
    ({ attributeLine := line b a, sibling := written b lines } : Fragment).Tidy where
  sections t ht := by
    have ht : t = line b a ∨ t = written b lines := by simpa [Fragment.sections] using ht
    rcases ht with rfl | rfl
    · exact nameOnly_line b ha
    · exact nameOnly_written b h
  members t ht := by cases ht
  hook t ht := by cases ht

theorem tidy_members {b : Backing} {lines : Lines} (h : lines.all isSober = true)
    (hne : lines ≠ []) : ({ members := written b (indent lines) } : Fragment).Tidy where
  sections t ht := by
    obtain rfl : t = written b (indent lines) := by simpa [Fragment.sections] using ht
    exact nameOnly_written b (by rwa [all_isSober_indent])
  members t ht := by
    cases ht
    exact endsLine_written b (indent_ne_nil hne)
  hook t ht := by cases ht

theorem tidy_hook {b : Backing} {lines : Lines} (h : lines.all isSober = true)
    (hne : lines ≠ []) : ({ hook := written b (indent (indent lines)) } : Fragment).Tidy where
  sections t ht := by
    obtain rfl : t = written b (indent (indent lines)) := by simpa [Fragment.sections] using ht
    exact nameOnly_written b (by rwa [all_isSober_indent, all_isSober_indent])
  members t ht := by cases ht
  hook t ht := by
    cases ht
    exact endsLine_written b (indent_ne_nil (indent_ne_nil hne))

theorem tidy_converter (b : Backing) (k : Converter) : (converter b k).Tidy := by
  obtain ⟨hnewtonsoft, hmodel, hframework, hdapper⟩ := all_isSober_converters b.storage
  cases k with
  | newtonsoftJson =>
    refine tidy_announced hnewtonsoft ?_
    rw [String.toList_ofList]
    decide
  | systemTextJson =>
    refine tidy_announced (all_isSober_systemText b) ?_
    rw [String.toList_ofList]
    decide
  | typeConverter =>
    refine tidy_announced hmodel ?_
    rw [String.toList_ofList]
    decide
  | efCoreValueConverter => exact tidy_members hframework (block_ne_nil _ _)
  | dapperTypeHandler => exact tidy_sibling hdapper

theorem tidy_implementation {b : Backing} {k : Implementation} {f : Fragment}
    (h : implementation b k = some f) : f.Tidy := by
  obtain ⟨hequatable, hcomparable, hparsable, hformattable, hoperators, hnegative, hnull⟩ :=
    all_isSober_implementations b.storage
  cases k with
  | equatable =>
    cases h
    exact tidy_members hequatable (paragraphs_ne_nil _ _ _)
  | comparable =>
    have hne : comparable b.storage ≠ [] := by
      cases b.storage with
      | value => exact List.cons_ne_nil _ _
      | text => exact List.cons_ne_nil _ _
      | optionalText => exact choice_ne_nil _ _
    rw [implementation] at h
    split at h
    · cases h
    · cases h
      exact tidy_members hcomparable hne
  | parsable =>
    cases h
    exact tidy_members hparsable (paragraphs_ne_nil _ _ _)
  | formattable =>
    rw [implementation] at h
    split at h
    · cases h
      exact tidy_members hformattable (List.cons_ne_nil _ _)
    · cases h
  | comparisonOperators =>
    rw [implementation] at h
    split at h
    · cases h
      exact tidy_members hoperators (paragraphs_ne_nil _ _ _)
    · cases h
  | validation =>
    rw [implementation] at h
    split at h
    · cases h
      exact tidy_hook hnegative (block_ne_nil _ _)
    · split at h
      · cases h
        exact tidy_hook hnull (block_ne_nil _ _)
      · cases h

/-! ### Bases -/

theorem all_isSober_baseGroups (b : Backing) : (paragraphs (baseGroups b)).all isSober = true := by
  cases b
  all_goals
    simp only [baseGroups, constructors, assignment, freshMember, emptyMember, presenceMember, display,
      revealMember, parseMember, tryParseBody, parseCondition, Backing.storage, Backing.isGuid]
    repeat rw [String.toList_ofList]
    decide

/-- The lines of a base before the brace that opens the hook's body. -/
def leadLines (b : Backing) : Lines :=
  indent (paragraphs (baseGroups b)) ++ [[], "    private static void Validate(¤ value)".toList]

/-- The built-in base of a backing, cut at its slots. -/
def frame (b : Backing) : Frame where
  front := "readonly partial struct ".toList ++ typeToken
  opening := written b (leadLines b) ++ "    \x7b".toList
  closing := "   \x7d\n".toList

theorem line_eq_self (b : Backing) {s : Text} (h : s.any isMark = false) : line b s = s := by
  induction s with
  | nil => rfl
  | cons c s ih =>
    obtain ⟨hc, hs⟩ := Bool.or_eq_false_iff.1 h
    rw [line, List.flatMap_cons, expand_of_not_isMark b hc, ← line, ih hs, List.singleton_append]

theorem base_header (b : Backing) : (base b).header = some (frame b).header := rfl

theorem base_members (b : Backing) : (base b).members = some (frame b).members := by
  have hbrace : line b "    \x7b".toList = "    \x7b".toList := line_eq_self b (by decide)
  have hslot : line b (validateToken ++ "    \x7d".toList) = validateToken ++ "    \x7d".toList :=
    line_eq_self b (by decide)
  have hclosing : "    \x7d".toList ++ ['\n'] = ' ' :: "   \x7d\n".toList := by decide
  have hlines : paragraphs [indent (paragraphs (baseGroups b)), hookGroup] =
      leadLines b ++ ["    \x7b".toList, validateToken ++ "    \x7d".toList] := by
    rw [paragraphs, List.intercalate_cons_cons, List.intercalate_singleton, leadLines, hookGroup,
      List.append_assoc, List.append_assoc]
    rfl
  have hwritten : ∀ lines lines' : Lines, written b (lines ++ lines') =
      written b lines ++ written b lines' := fun _ _ => List.flatMap_append
  have hlast : written b ["    \x7b".toList, validateToken ++ "    \x7d".toList] =
      "    \x7b".toList ++ '\n' :: (validateToken ++ ' ' :: "   \x7d\n".toList) := by
    rw [written, List.flatMap_cons, List.flatMap_cons, List.flatMap_nil, hbrace, hslot,
      List.append_nil, List.append_assoc validateToken, hclosing, List.append_assoc]
    rfl
  have hwhole : written b (paragraphs [indent (paragraphs (baseGroups b)), hookGroup]) =
      (frame b).members := by
    have hopening : (frame b).opening = written b (leadLines b) ++ "    \x7b".toList := rfl
    have hend : (frame b).closing = "   \x7d\n".toList := rfl
    rw [hlines, hwritten, hlast, Frame.members, Frame.body, hopening, hend, List.append_assoc]
  exact congrArg some hwhole

theorem tidy_frame (b : Backing) : (frame b).Tidy where
  front := nameOnly_append (by decide) (by decide)
  opening := by
    have hlines : (leadLines b).all isSober = true := by
      rw [leadLines, List.all_append, all_isSober_indent, all_isSober_baseGroups,
        String.toList_ofList]
      decide
    have hend : EndsLine (written b (leadLines b)) :=
      endsLine_written b (List.append_ne_nil_of_right_ne_nil _ (List.cons_ne_nil _ _))
    exact (nameOnly_written b hlines).append (by decide) hend
  closing := by
    change NameOnly "   \x7d\n".toList ∧ EndsLine "   \x7d\n".toList
    exact ⟨by decide, "   \x7d".toList, by decide⟩

end TypedId.Builtin
