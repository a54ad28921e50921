import TypedId.Generator
import TypedId.Proofs.Composition

/-!
# Generation step by step

A request gets a unit exactly when its names are valid, its backing has a base, and every step of
composing succeeds.
-/

namespace TypedId

namespace Text

theorem isIdentifierPart_of_start {c : Char} (h : isIdentifierStart c = true) :
    isIdentifierPart c = true := by
  simp only [isIdentifierStart, isIdentifierPart, Char.isAlphanum, Bool.or_eq_true] at h ⊢
  rcases h with h | h
  · exact Or.inl (Or.inl h)
  · exact Or.inr h

theorem isIdentifierPart_of_mem {s : Text} (h : isIdentifier s = true) :
    ∀ c ∈ s, isIdentifierPart c = true := by
  cases s with
  | nil => cases h
  | cons c s =>
    obtain ⟨hc, hs⟩ := Bool.and_eq_true_iff.1 h
    intro d hd
    rcases List.mem_cons.1 hd with rfl | hd
    · exact isIdentifierPart_of_start hc
    · exact List.all_eq_true.1 hs d hd

theorem ne_nil_of_isIdentifier {s : Text} (h : isIdentifier s = true) : s ≠ [] := by
  rintro rfl
  cases h

/-- Only what an identifier may hold can stand in one. -/
theorem not_mem_of_isIdentifier {s : Text} (h : isIdentifier s = true) {c : Char}
    (hc : isIdentifierPart c = false) : c ∉ s := by
  intro hm
  rw [isIdentifierPart_of_mem h c hm] at hc
  cases hc

theorem not_mem_of_isDotted {s : Text} (h : isDotted s = true) {c : Char}
    (hc : isIdentifierPart c = false) (hdot : c ≠ '.') : c ∉ s := by
  have hsep : ∀ x ∈ ['.'], x ∉ [c] := by simpa using Ne.symm hdot
  intro hm
  have hs : ['.'].intercalate (s.splitOn '.') = s := List.intercalate_splitOn '.'
  rw [← List.singleton_infix_iff, ← hs,
    infix_intercalate_iff (List.cons_ne_nil _ _) hsep (List.cons_ne_nil c [])] at hm
  obtain ⟨part, hp, hcp⟩ := hm
  exact not_mem_of_isIdentifier (List.all_eq_true.1 h part hp) hc
    ((List.singleton_infix_iff c part).1 hcp)

end Text

namespace SourceUnit

/-- What stands before the declarations ends in a line end and has no opening brace. -/
theorem front_shape {scope : Option Text} (h : ∀ s ∈ scope, Text.isDotted s = true) :
    ∃ front, preamble ++ scopeLine scope = front ++ ['\n'] ∧ '\x7b' ∉ front := by
  have hpreamble : preamble = "// <auto-generated/>\n#nullable enable\n".toList ++ ['\n'] := by
    decide
  have hcomment : '\x7b' ∉ "// <auto-generated/>\n#nullable enable\n".toList := by decide
  cases scope with
  | none => exact ⟨_, by rw [scopeLine_none, List.append_nil, hpreamble], hcomment⟩
  | some s =>
    have hs : '\x7b' ∉ s := Text.not_mem_of_isDotted (h s rfl) (by decide) (by decide)
    have hopen : '\x7b' ∉ "namespace ".toList := by decide
    have hclose : ";\n\n".toList = [';', '\n'] ++ ['\n'] := by decide
    refine ⟨preamble ++ "namespace ".toList ++ s ++ [';', '\n'], ?_, ?_⟩
    · simp only [scopeLine_some, hclose, List.append_assoc]
    · simp only [hpreamble, List.mem_append, not_or]
      exact ⟨⟨⟨⟨hcomment, by decide⟩, hopen⟩, hs⟩, by decide⟩

end SourceUnit

namespace Request

/-- The type's name is an identifier and the namespace, if any, is dotted identifiers. -/
structure WellNamed (r : Request) : Prop where
  name : Text.isIdentifier r.name = true
  scope : ∀ scope ∈ r.scope, Text.isDotted scope = true

/-- The spec of a request with every deferred field filled in. -/
def filled (r : Request) (d : Defaults) : Spec where
  name := r.name
  scope := r.scope
  backing := r.backing.getD d.backing
  converters := r.converters.getD d.converters
  implementations := r.implementations.getD d.implementations

theorem resolve_eq_ok {r : Request} {d : Defaults} {s : Spec} :
    r.resolve d = .ok s ↔ r.WellNamed ∧ s = r.filled d := by
  unfold resolve
  cases hn : Text.isIdentifier r.name with
  | false =>
    refine iff_of_false (by simp) ?_
    rintro ⟨⟨h, -⟩, -⟩
    rw [hn] at h
    cases h
  | true =>
    have key : r.scope.filter (!Text.isDotted ·) = none ↔
        ∀ scope ∈ r.scope, Text.isDotted scope = true := by
      simp [Option.filter_eq_none_iff]
    cases hf : r.scope.filter (!Text.isDotted ·) with
    | none =>
      have hs := key.1 hf
      simp only [Bool.not_true, Bool.false_eq_true, if_false, Except.ok.injEq]
      constructor
      · rintro rfl
        exact ⟨⟨hn, hs⟩, rfl⟩
      · rintro ⟨-, rfl⟩
        rfl
    | some scope =>
      refine iff_of_false (by simp) ?_
      rintro ⟨⟨-, hs⟩, -⟩
      rw [key.2 hs] at hf
      cases hf

/-- Once the names are valid, generation is selection and composition of the filled spec. -/
theorem generate_of_wellNamed {r : Request} (h : r.WellNamed) (d : Defaults) (c : Catalog) :
    r.generate d c = (r.filled d).select c >>= fun sel => (r.filled d).compose sel c := by
  rw [generate, resolve_eq_ok.2 ⟨h, rfl⟩]
  rfl

theorem generate_eq_ok {r : Request} {d : Defaults} {c : Catalog} {u : SourceUnit} :
    r.generate d c = .ok u ↔ ∃ sel a, r.WellNamed ∧ (r.filled d).select c = .ok sel ∧
      Assembly.Steps (r.filled d) sel c a ∧ u = a.unit (r.filled d) sel := by
  simp only [generate, bind_eq_ok, resolve_eq_ok, Spec.compose_eq_ok]
  constructor
  · rintro ⟨s, ⟨hr, rfl⟩, sel, hsel, a, ha, rfl⟩
    exact ⟨sel, a, hr, hsel, ha, rfl⟩
  · rintro ⟨sel, a, hr, hsel, ha, rfl⟩
    exact ⟨_, ⟨hr, rfl⟩, sel, hsel, a, ha, rfl⟩

theorem source_of_generate {r : Request} {d : Defaults} {c : Catalog} {u : SourceUnit}
    (h : r.generate d c = .ok u) : u.source = SourceUnit.assemble r.scope u.declarations := by
  obtain ⟨s, hs, h⟩ := bind_eq_ok.1 h
  obtain ⟨sel, -, hcompose⟩ := bind_eq_ok.1 h
  obtain ⟨-, rfl⟩ := resolve_eq_ok.1 hs
  exact Spec.source_of_compose hcompose

end Request
end TypedId
