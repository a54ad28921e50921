import TypedId.Proofs.Generation

/-!
# Resolution

Which names a request may have, as a grammar, and how it is refused for others. What resolution
gives stands on its own: as a request it resolves and generates the same under any defaults.
-/

namespace TypedId

namespace Text

/-- The letters of the alphabet and the underscore. -/
def Letter (c : Char) : Prop := ('A' ≤ c ∧ c ≤ 'Z') ∨ ('a' ≤ c ∧ c ≤ 'z') ∨ c = '_'

def Digit (c : Char) : Prop := '0' ≤ c ∧ c ≤ '9'

/-- An identifier starts with a letter; letters and digits follow. -/
inductive Identifier : Text → Prop
  | mk {c : Char} {s : Text} : Letter c → (∀ d ∈ s, Letter d ∨ Digit d) → Identifier (c :: s)

/-- One identifier, or several with a dot between each two. -/
inductive Dotted : Text → Prop
  | single {p : Text} : Identifier p → Dotted p
  | cons {p s : Text} : Identifier p → Dotted s → Dotted (p ++ '.' :: s)

/-- A check that a character lies in a range. -/
theorem inRange_iff (low c high : Char) :
    (decide (low ≤ c) && decide (c ≤ high)) = true ↔ low ≤ c ∧ c ≤ high := by
  rw [Bool.and_eq_true, decide_eq_true_eq, decide_eq_true_eq]

theorem isAlpha_iff {c : Char} :
    c.isAlpha = true ↔ ('A' ≤ c ∧ c ≤ 'Z') ∨ ('a' ≤ c ∧ c ≤ 'z') :=
  Bool.or_eq_true_iff.trans (or_congr decide_eq_true_iff (inRange_iff 'a' c 'z'))

theorem isAlphanum_iff {c : Char} : c.isAlphanum = true ↔ c.isAlpha = true ∨ Digit c :=
  Bool.or_eq_true_iff.trans (or_congr Iff.rfl (inRange_iff '0' c '9'))

theorem isIdentifierStart_iff {c : Char} : isIdentifierStart c = true ↔ Letter c := by
  rw [isIdentifierStart, Bool.or_eq_true, decide_eq_true_eq, isAlpha_iff, or_assoc, Letter]

theorem isIdentifierPart_iff {c : Char} : isIdentifierPart c = true ↔ Letter c ∨ Digit c := by
  rw [isIdentifierPart, Bool.or_eq_true, decide_eq_true_eq, isAlphanum_iff, or_right_comm,
    isAlpha_iff, or_assoc (c := c = '_'), Letter]

theorem isIdentifier_iff {s : Text} : isIdentifier s = true ↔ Identifier s := by
  constructor
  · intro h
    cases s with
    | nil => cases h
    | cons c s =>
      obtain ⟨hc, hs⟩ := Bool.and_eq_true_iff.1 h
      exact .mk (isIdentifierStart_iff.1 hc) fun d hd =>
        isIdentifierPart_iff.1 (List.all_eq_true.1 hs d hd)
  · rintro ⟨hc, hs⟩
    rw [isIdentifier, isIdentifierStart_iff.2 hc, Bool.true_and, List.all_eq_true]
    exact fun d hd => isIdentifierPart_iff.2 (hs d hd)

theorem Identifier.not_mem_dot {p : Text} (h : Identifier p) : '.' ∉ p :=
  not_mem_of_isIdentifier (isIdentifier_iff.2 h) (by decide)

theorem Dotted.intercalate {parts : List Text} (hne : parts ≠ [])
    (h : ∀ p ∈ parts, Identifier p) : Dotted (['.'].intercalate parts) := by
  induction parts with
  | nil => exact absurd rfl hne
  | cons p parts ih =>
    obtain ⟨hp, hparts⟩ := List.forall_mem_cons.1 h
    cases parts with
    | nil =>
      rw [List.intercalate_singleton]
      exact .single hp
    | cons q parts =>
      rw [List.intercalate_cons_cons, List.append_assoc]
      exact .cons hp (ih (List.cons_ne_nil q parts) hparts)

theorem isDotted_iff {s : Text} : isDotted s = true ↔ Dotted s := by
  constructor
  · intro h
    have hparts : ∀ p ∈ s.splitOn '.', Identifier p := fun p hp =>
      isIdentifier_iff.1 (List.all_eq_true.1 h p hp)
    have hs := Dotted.intercalate (List.splitOn_ne_nil '.' s) hparts
    rwa [List.intercalate_splitOn] at hs
  · intro h
    induction h with
    | single hp =>
      rw [isDotted, List.splitOn_eq_singleton hp.not_mem_dot]
      simp [isIdentifier_iff.2 hp]
    | cons hp _ ih =>
      have hdot : ∀ c ∈ _, (c == '.') = false := fun c hc =>
        beq_false_of_ne (ne_of_mem_of_not_mem hc hp.not_mem_dot)
      rw [isDotted, List.splitOn_eq_splitOnP] at ih ⊢
      rw [List.splitOnP_append_cons_of_forall_mem hdot '.' rfl, List.all_cons, ih,
        isIdentifier_iff.2 hp]
      rfl

end Text

namespace Request

open Text

/-- How a request is refused for its names: the type's own name is judged before the namespace. -/
inductive Misnamed (r : Request) : Failure → Prop
  | name : ¬ Identifier r.name → Misnamed r (.configuration r.name .badName)
  | scope {scope : Text} : Identifier r.name → r.scope = some scope → ¬ Dotted scope →
      Misnamed r (.configuration r.name (.badScope scope))

theorem wellNamed_iff {r : Request} :
    r.WellNamed ↔ Identifier r.name ∧ ∀ scope ∈ r.scope, Dotted scope := by
  constructor
  · intro h
    exact ⟨isIdentifier_iff.1 h.name, fun scope hs => isDotted_iff.1 (h.scope scope hs)⟩
  · rintro ⟨hname, hscope⟩
    exact ⟨isIdentifier_iff.2 hname, fun scope hs => isDotted_iff.2 (hscope scope hs)⟩

theorem resolve_of_badName {r : Request} (h : ¬ Identifier r.name) (d : Defaults) :
    r.resolve d = .error (.configuration r.name .badName) := by
  have hname : isIdentifier r.name = false :=
    Bool.eq_false_iff.2 fun ht => h (isIdentifier_iff.1 ht)
  rw [resolve, hname]
  rfl

theorem resolve_of_badScope {r : Request} {scope : Text} (hname : Identifier r.name)
    (hscope : r.scope = some scope) (h : ¬ Dotted scope) (d : Defaults) :
    r.resolve d = .error (.configuration r.name (.badScope scope)) := by
  have hdotted : isDotted scope = false :=
    Bool.eq_false_iff.2 fun ht => h (isDotted_iff.1 ht)
  rw [resolve, isIdentifier_iff.2 hname, hscope, Option.filter_some_pos (by simp [hdotted])]
  rfl

theorem resolve_eq_error_iff {r : Request} {d : Defaults} {e : Failure} :
    r.resolve d = .error e ↔ Misnamed r e := by
  constructor
  · intro h
    by_cases hname : Identifier r.name
    · have hbad : ¬ ∀ scope ∈ r.scope, Dotted scope := by
        intro hscope
        rw [resolve_eq_ok.2 ⟨wellNamed_iff.2 ⟨hname, hscope⟩, rfl⟩] at h
        cases h
      simp only [not_forall] at hbad
      obtain ⟨scope, hscope, hdotted⟩ := hbad
      rw [resolve_of_badScope hname hscope hdotted] at h
      cases h
      exact .scope hname hscope hdotted
    · rw [resolve_of_badName hname] at h
      cases h
      exact .name hname
  · intro h
    cases h with
    | name hname => exact resolve_of_badName hname d
    | scope hname hscope hdotted => exact resolve_of_badScope hname hscope hdotted d

/-- A resolved spec, taken as a request, resolves to itself whatever the defaults. -/
theorem resolve_toRequest {r : Request} {d : Defaults} {s : Spec} (h : r.resolve d = .ok s)
    (d' : Defaults) : s.toRequest.resolve d' = .ok s := by
  obtain ⟨hr, rfl⟩ := resolve_eq_ok.1 h
  exact resolve_eq_ok.2 ⟨⟨hr.name, hr.scope⟩, rfl⟩

/-- Past resolution a run depends on nothing but the spec and the catalog. -/
theorem generate_resolve_congr {r r' : Request} {d d' : Defaults} (h : r.resolve d = r'.resolve d')
    (c : Catalog) : r.generate d c = r'.generate d' c := by
  rw [generate, generate, h]

/-- Resolution takes exactly the names of the grammar, whatever the defaults, and judges the type's
name first. Its result has every deferred field filled in and is settled for good: under other
defaults it resolves to itself, and over any catalog it generates what the request generated. -/
theorem resolve_settled (r : Request) (d : Defaults) :
    ((∃ s, r.resolve d = .ok s) ↔ Identifier r.name ∧ ∀ scope ∈ r.scope, Dotted scope) ∧
    (∀ e, r.resolve d = .error e ↔ Misnamed r e) ∧
    ∀ s, r.resolve d = .ok s →
      s = r.filled d ∧
      ∀ d', s.toRequest.resolve d' = .ok s ∧
        ∀ c, s.toRequest.generate d' c = r.generate d c := by
  refine ⟨?_, fun e => resolve_eq_error_iff, ?_⟩
  · rw [← wellNamed_iff]
    simp [resolve_eq_ok]
  · intro s h
    refine ⟨(resolve_eq_ok.1 h).2, fun d' => ?_⟩
    have hagain := resolve_toRequest h d'
    exact ⟨hagain, fun c => generate_resolve_congr (hagain.trans h.symm) c⟩

/-- A request in a nested namespace that defers two of its fields. -/
def nestedRequest : Request where
  name := "_Id2".toList
  scope := some "Shop.Orders".toList
  backing := .explicit .long

theorem resolve_nestedRequest :
    nestedRequest.resolve .builtIn = .ok (nestedRequest.filled .builtIn) ∧
    (nestedRequest.filled .builtIn).toRequest.resolve ⟨.int, ∅, ∅⟩ =
      .ok (nestedRequest.filled .builtIn) ∧
    ∀ c, (nestedRequest.filled .builtIn).toRequest.generate ⟨.int, ∅, ∅⟩ c =
      nestedRequest.generate .builtIn c := by
  have hresolve : nestedRequest.resolve .builtIn = .ok (nestedRequest.filled .builtIn) := by decide
  obtain ⟨-, hsettled⟩ := (resolve_settled nestedRequest .builtIn).2.2 _ hresolve
  exact ⟨hresolve, hsettled ⟨.int, ∅, ∅⟩⟩

-- the empty namespace is none
example (d : Defaults) : { nestedRequest with scope := some [] }.resolve d =
    .error (.configuration "_Id2".toList (.badScope [])) := rfl

end Request
end TypedId
