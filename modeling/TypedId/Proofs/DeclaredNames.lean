import TypedId.Catalog.Edit
import TypedId.Proofs.Composition
import TypedId.Proofs.Lines

/-!
# Declared names

A declaration beside the struct goes by the word that follows the first head word of its text. Where
the head of the declaration is one word, that is the name it declares. Where the head has two words,
it is the second of them, and the declared name is passed over.
-/

namespace TypedId

open Text Placeholder

namespace Text

/-! ### Words with white space after them -/

/-- Some words, each with white space after it. -/
inductive Spaced : List Text → Text → Prop
  | nil : Spaced [] []
  | cons {w gap s : Text} {ws : List Text} : w ≠ [] → w.any isBlank = false → gap ≠ [] →
      gap.all isBlank = true → Spaced ws s → Spaced (w :: ws) (w ++ (gap ++ s))

theorem Spaced.space {w s : Text} {ws : List Text} (hne : w ≠ []) (hw : w.any isBlank = false)
    (h : Spaced ws s) : Spaced (w :: ws) (w ++ ([' '] ++ s)) :=
  .cons hne hw (by decide) (by decide) h

theorem words_spaced {ws : List Text} {s : Text} (h : Spaced ws s) (t : Text) :
    words (s ++ t) = ws ++ words t := by
  induction h with
  | nil => rfl
  | @cons w gap s ws hne hw hgap hblank _ ih =>
    obtain ⟨c, gap', rfl⟩ := List.exists_cons_of_ne_nil hgap
    simp only [List.all_cons, Bool.and_eq_true] at hblank
    have hword := words_append_cons hne hw hblank.1 (gap' ++ (s ++ t))
    have hrest := words_blank_append hblank.2 (s ++ t)
    have hassoc : w ++ (c :: gap' ++ s) ++ t = w ++ c :: (gap' ++ (s ++ t)) := by simp
    rw [hassoc, hword, hrest, ih, List.cons_append]

/-- The word at the front of a text goes on up to the next white space. -/
theorem words_append {w : Text} (hne : w ≠ []) (hw : w.any isBlank = false) (s : Text) :
    ∃ rest, words (w ++ s) = (w ++ s.takeWhile (! isBlank ·)) :: rest := by
  have hword : (w ++ s.takeWhile (! isBlank ·)).any isBlank = false := by
    rw [List.any_append, hw, Bool.false_or, List.any_eq_false]
    intro c hc
    simpa using List.mem_takeWhile_imp hc
  have hwordne : w ++ s.takeWhile (! isBlank ·) ≠ [] := List.append_ne_nil_of_left_ne_nil hne _
  have hcut : w ++ s = w ++ s.takeWhile (! isBlank ·) ++ s.dropWhile (! isBlank ·) := by
    rw [List.append_assoc, List.takeWhile_append_dropWhile]
  cases hdrop : s.dropWhile (! isBlank ·) with
  | nil =>
    rw [hdrop, List.append_nil] at hcut
    exact ⟨[], by rw [hcut, words_of_not_blank hwordne hword]⟩
  | cons c rest =>
    have hhead := List.head?_dropWhile_not (! isBlank ·) s
    rw [hdrop] at hhead hcut
    have hc : isBlank c = true := by simpa using hhead
    exact ⟨words rest, by rw [hcut, words_append_cons hwordne hword hc]⟩

end Text

namespace Declaration

/-! ### Declarations as they are written -/

/-- The heads of type declarations, word by word. -/
def heads : List (List Text) :=
  [["class".toList], ["struct".toList], ["interface".toList], ["record".toList],
   ["record".toList, "class".toList], ["record".toList, "struct".toList]]

/-- The words that C# reserves, which name nothing. -/
def keywords : List String :=
  ["abstract", "as", "base", "bool", "break", "byte", "case", "catch", "char", "checked", "class",
   "const", "continue", "decimal", "default", "delegate", "do", "double", "else", "enum", "event",
   "explicit", "extern", "false", "finally", "fixed", "float", "for", "foreach", "goto", "if",
   "implicit", "in", "int", "interface", "internal", "is", "lock", "long", "namespace", "new",
   "null", "object", "operator", "out", "override", "params", "private", "protected", "public",
   "readonly", "ref", "return", "sbyte", "sealed", "short", "sizeof", "stackalloc", "static",
   "string", "struct", "switch", "this", "throw", "true", "try", "typeof", "uint", "ulong",
   "unchecked", "unsafe", "ushort", "using", "virtual", "void", "volatile", "while"]

def reserved : List Text := keywords.map String.toList

theorem mem_reserved {w : String} : w.toList ∈ reserved ↔ w ∈ keywords :=
  List.mem_map_of_injective fun _ _ => String.toList_inj.1

/-- The text declares a type of the given name: words that are no head words, a head, the name, and
what cannot belong to the name. -/
def Declares (head : List Text) (name text : Text) : Prop :=
  ∃ margin modifiers front rest, margin.all isBlank = true ∧ (∀ w ∈ modifiers, w ∉ headWords) ∧
    head ∈ heads ∧ Spaced (modifiers ++ head) front ∧ isIdentifier name = true ∧ name ∉ reserved ∧
    (∀ c ∈ rest.head?, isIdentifierPart c = false) ∧ text = margin ++ front ++ name ++ rest

/-- The word after the first head word: the rest of a head of two words, or else the name. -/
def following (head : List Text) (name : Text) : Text := head.tail.headD name

theorem heads_cases {head : List Text} (h : head ∈ heads) : ∃ first ∈ headWords,
    head = [first] ∨ ∃ second ∈ ["class".toList, "struct".toList], head = [first, second] := by
  simp only [heads, List.mem_cons, List.not_mem_nil, or_false] at h
  rcases h with h | h | h | h | h | h
  · exact ⟨_, by decide, Or.inl h⟩
  · exact ⟨_, by decide, Or.inl h⟩
  · exact ⟨_, by decide, Or.inl h⟩
  · exact ⟨_, by decide, Or.inl h⟩
  · exact ⟨_, by decide, Or.inr ⟨_, by decide, h⟩⟩
  · exact ⟨_, by decide, Or.inr ⟨_, by decide, h⟩⟩

theorem of_second {w : Text} (h : w ∈ ["class".toList, "struct".toList]) :
    w ≠ [] ∧ w.takeWhile isIdentifierPart = w ∧ w ∈ reserved := by
  have hkeyword : "class" ∈ keywords ∧ "struct" ∈ keywords := by simp [keywords]
  simp only [List.mem_cons, List.not_mem_nil, or_false] at h
  rcases h with rfl | rfl
  · exact ⟨by decide, by decide, mem_reserved.2 hkeyword.1⟩
  · exact ⟨by decide, by decide, mem_reserved.2 hkeyword.2⟩

theorem declaredName?_of_words {text first word : Text} {before after : List Text}
    (hwords : words text = before ++ first :: word :: after) (hbefore : ∀ w ∈ before, w ∉ headWords)
    (hfirst : first ∈ headWords) (hne : word.takeWhile isIdentifierPart ≠ []) :
    declaredName? text = some (word.takeWhile isIdentifierPart) := by
  have hdrop : (words text).dropWhile (· ∉ headWords) = first :: word :: after := by
    rw [hwords, List.dropWhile_append_of_pos (by simpa using hbefore),
      List.dropWhile_cons_of_neg (by simpa using hfirst)]
  rw [declaredName?, hdrop]
  simp [hne]

/-- What the scan takes for the declared name. -/
theorem declaredName?_of_declares {head : List Text} {name text : Text}
    (h : Declares head name text) : declaredName? text = some (following head name) := by
  obtain ⟨margin, modifiers, front, rest, hmargin, hmodifiers, hhead, hfront, hname, -, hrest,
    rfl⟩ := h
  have hne := ne_nil_of_isIdentifier hname
  have hpart := isIdentifierPart_of_mem hname
  obtain ⟨after, hlast⟩ := words_append hne (any_isBlank_of_all (List.all_eq_true.2 hpart)) rest
  have hassoc : margin ++ front ++ name ++ rest = margin ++ (front ++ (name ++ rest)) := by simp
  have hwords : words (margin ++ front ++ name ++ rest) =
      modifiers ++ (head ++ (name ++ rest.takeWhile (! isBlank ·)) :: after) := by
    rw [hassoc, words_blank_append hmargin, words_spaced hfront, hlast, List.append_assoc]
  obtain ⟨first, hfirst, rfl | ⟨second, hsecond, rfl⟩⟩ := heads_cases hhead
  · -- the name ends where its word does, or before a character that it cannot hold
    have hkept : (name ++ rest.takeWhile (! isBlank ·)).takeWhile isIdentifierPart = name := by
      rw [List.takeWhile_append_of_pos hpart]
      cases rest with
      | nil => simp
      | cons c rest => cases hc : isBlank c <;> simp [hc, hrest c rfl]
    have hdeclared := declaredName?_of_words hwords hmodifiers hfirst (by rwa [hkept])
    rw [hdeclared, hkept]
    rfl
  · obtain ⟨hsecondne, hkept, -⟩ := of_second hsecond
    have hdeclared := declaredName?_of_words hwords hmodifiers hfirst (by rwa [hkept])
    rw [hdeclared, hkept]
    rfl

/-- The scan finds the name exactly where the head is one word. -/
theorem following_eq_iff {head : List Text} {name text : Text} (h : Declares head name text) :
    following head name = name ↔ head.length = 1 := by
  obtain ⟨-, -, -, -, -, -, hhead, -, -, hfree, -⟩ := h
  obtain ⟨first, -, rfl | ⟨second, hsecond, rfl⟩⟩ := heads_cases hhead
  · exact iff_of_true rfl rfl
  · refine iff_of_false (fun hname => ?_) (by simp)
    have hreserved := (of_second hsecond).2.2
    change second = name at hname
    rw [hname] at hreserved
    exact hfree hreserved

end Declaration

namespace Spec

open Declaration

/-- A declaration beside the struct goes by the name it declares exactly where the head of that
declaration is one word. After the head of a record class or a record struct it goes by the second
word of the head. -/
theorem name_sibling_iff {s : Spec} {sel : Selection} {c : Catalog} {u : SourceUnit}
    (h : s.compose sel c = .ok u) : ∀ d ∈ u.siblings, ∀ head name, Declares head name d.text →
      d.name = following head name ∧ (d.name = name ↔ head.length = 1) := by
  intro d hd head name hdeclares
  obtain ⟨a, -, rfl⟩ := compose_eq_ok.1 h
  rw [SourceUnit.siblings_unit] at hd
  obtain ⟨text, -, rfl⟩ := List.mem_map.1 hd
  have hdeclared : declaredName? text = some (following head name) :=
    declaredName?_of_declares hdeclares
  have hname : (ofSibling s.name text).name = following head name := by
    rw [ofSibling, hdeclared, Option.getD_some]
  rw [hname]
  exact ⟨rfl, following_eq_iff hdeclares⟩

/-! ### A record beside the struct -/

/-- One adapter of this catalog is a record struct, the other one a class. -/
def recordCatalog : Catalog := Catalog.build [
  .put (.base .int) { header := "struct \x7b\x7bTYPE\x7d\x7d\x7b\x7bINTERFACES\x7d\x7d".toList
                      members := validateToken },
  .put (.converter .int .typeConverter)
    { sibling := "public record struct \x7b\x7bTYPE\x7d\x7dKey(int Id);\n".toList },
  .put (.converter .int .dapperTypeHandler)
    { sibling := "public class \x7b\x7bTYPE\x7d\x7dHandler<T>\n".toList }]

def recordSpec : Spec where
  name := "A".toList
  scope := none
  backing := .int
  converters := .ofList [.typeConverter, .dapperTypeHandler]
  implementations := ∅

def recordSelection : Selection where
  keys := [.base .int, .converter .int .typeConverter, .converter .int .dapperTypeHandler]

def recordAdapter : Declaration :=
  ⟨.sibling, "struct".toList, "public record struct AKey(int Id);\n".toList⟩

def classAdapter : Declaration :=
  ⟨.sibling, "AHandler".toList, "public class AHandler<T>\n".toList⟩

def recordUnit : SourceUnit where
  hintName := "A.g.cs".toList
  typeName := "A".toList
  declarations :=
    [⟨.primary, "A".toList, "struct A\n\x7b\n\x7d\n".toList⟩, recordAdapter, classAdapter]
  diagnostics := []
  source := "// <auto-generated/>\n#nullable enable\n\nstruct A\n\x7b\n\x7d\n\n".toList ++
    recordAdapter.text ++ ['\n'] ++ classAdapter.text

theorem compose_recordSpec : recordSpec.compose recordSelection recordCatalog = .ok recordUnit := by
  decide +kernel

theorem siblings_recordUnit : recordUnit.siblings = [recordAdapter, classAdapter] := rfl

theorem declares_recordAdapter :
    Declares ["record".toList, "struct".toList] "AKey".toList recordAdapter.text := by
  have hstruct : Spaced ["struct".toList] _ := .space (by decide) (by decide) .nil
  have hrecord : Spaced ["record".toList, "struct".toList] _ :=
    .space (by decide) (by decide) hstruct
  have hfront : Spaced (["public".toList] ++ ["record".toList, "struct".toList]) _ :=
    .space (by decide) (by decide) hrecord
  have hstop : ∀ c ∈ "(int Id);\n".toList.head?, isIdentifierPart c = false := by
    intro c hc
    have hparen : c = '(' := (Option.some.inj hc).symm
    rw [hparen]
    decide
  have hfree : "AKey" ∉ keywords := by simp [keywords]
  exact ⟨[], ["public".toList], _, _, by decide, by decide, by decide, hfront, by decide,
    mt mem_reserved.1 hfree, hstop, by decide⟩

theorem declares_classAdapter : Declares ["class".toList] "AHandler".toList classAdapter.text := by
  have hclass : Spaced ["class".toList] _ := .space (by decide) (by decide) .nil
  have hfront : Spaced (["public".toList] ++ ["class".toList]) _ :=
    .space (by decide) (by decide) hclass
  have hstop : ∀ c ∈ "<T>\n".toList.head?, isIdentifierPart c = false := by
    intro c hc
    have hangle : c = '<' := (Option.some.inj hc).symm
    rw [hangle]
    decide
  have hfree : "AHandler" ∉ keywords := by simp [keywords]
  exact ⟨[], ["public".toList], _, _, by decide, by decide, by decide, hfront, by decide,
    mt mem_reserved.1 hfree, hstop, by decide⟩

/-- A record struct goes by the word `struct`. -/
theorem exists_misnamed_sibling :
    ¬ ∀ (s : Spec) (sel : Selection) (c : Catalog) (u : SourceUnit), s.compose sel c = .ok u →
      ∀ d ∈ u.siblings, ∀ head name, Declares head name d.text → d.name = name := by
  intro h
  have hmem : recordAdapter ∈ recordUnit.siblings := by simp [siblings_recordUnit]
  have hname := h _ _ _ _ compose_recordSpec _ hmem _ _ declares_recordAdapter
  exact absurd hname (by decide)

theorem name_sibling_recordUnit :
    recordSpec.compose recordSelection recordCatalog = .ok recordUnit ∧
    (classAdapter ∈ recordUnit.siblings ∧
      Declares ["class".toList] "AHandler".toList classAdapter.text ∧
      classAdapter.name = "AHandler".toList) ∧
    recordAdapter ∈ recordUnit.siblings ∧
      Declares ["record".toList, "struct".toList] "AKey".toList recordAdapter.text ∧
      recordAdapter.name = "struct".toList ∧ recordAdapter.name ≠ "AKey".toList := by
  have hnames := name_sibling_iff compose_recordSpec
  have hclass : classAdapter ∈ recordUnit.siblings := by simp [siblings_recordUnit]
  have hrecord : recordAdapter ∈ recordUnit.siblings := by simp [siblings_recordUnit]
  have hclassName := (hnames _ hclass _ _ declares_classAdapter).1
  have hrecordName := hnames _ hrecord _ _ declares_recordAdapter
  refine ⟨compose_recordSpec, ⟨hclass, declares_classAdapter, hclassName⟩, hrecord,
    declares_recordAdapter, hrecordName.1, fun hname => ?_⟩
  have hlength := hrecordName.2.1 hname
  exact absurd hlength (by decide)

end Spec
end TypedId
