import TypedId.Proofs.Failure

/-!
# Composing any selection

A selection may be made by hand. Nothing is composed without the fragments of all its keys and the
base in front. Where composing succeeds, the unit holds the struct and one declaration for each
sibling section, and the file is these texts below each other.
-/

namespace TypedId

open Placeholder

/-! ### The key that is missed -/

/-- The key for want of whose fragment nothing is composed: the first that the catalog lacks, or
else the base. -/
inductive Selection.Misses (sel : Selection) (s : Spec) (c : Catalog) : Key → Prop
  | absent {before after : List Key} {key : Key} (split : sel.keys = before ++ key :: after)
      (held : ∀ k ∈ before, (c.lookup k).isSome = true) (lacking : c.lookup key = none) :
      Misses sel s c key
  | base (held : ∀ k ∈ sel.keys, (c.lookup k).isSome = true)
      (astray : sel.keys.head? ≠ some (.base s.backing)) : Misses sel s c (.base s.backing)

namespace Spec

variable {s : Spec} {sel : Selection} {c : Catalog}

theorem compose_of_misses {key : Key} (h : sel.Misses s c key) :
    s.compose sel c = .error (.missingFragment s.name key) := by
  rw [compose, bind_eq_error]
  cases h with
  | absent split held lacking =>
    exact Or.inl (Part.gather_eq_error_iff.2 ⟨_, _, _, split, held, lacking, rfl⟩)
  | base held astray =>
    have hgather := Catalog.gather_parts held s.name
    cases hlead : Part.leadingBase s (c.parts sel.keys) with
    | ok base =>
      obtain ⟨hhead, hkey⟩ := Part.leadingBase_eq_ok.1 hlead
      have hfirst : sel.keys.head? = some (.base s.backing) := by
        rw [← Catalog.map_key_parts held, List.head?_map, hhead, Option.map_some, hkey]
      exact absurd hfirst astray
    | error f =>
      obtain ⟨-, rfl⟩ := Part.leadingBase_eq_error hlead
      exact Or.inr ⟨_, hgather, bind_eq_error.2 (Or.inl hlead)⟩

/-- A key is missed where one has no fragment, and where the first is not the base. -/
theorem exists_misses_iff : (∃ key, sel.Misses s c key) ↔
    (∃ key ∈ sel.keys, c.lookup key = none) ∨ sel.keys.head? ≠ some (.base s.backing) := by
  constructor
  · intro ⟨key, h⟩
    cases h with
    | absent split _ lacking => exact Or.inl ⟨key, by simp [split], lacking⟩
    | base _ astray => exact Or.inr astray
  · intro h
    cases hgather : Part.gather s.name c sel.keys with
    | error f =>
      obtain ⟨before, key, after, split, held, lacking, -⟩ := Part.gather_eq_error_iff.1 hgather
      exact ⟨key, .absent split held lacking⟩
    | ok parts =>
      have held := Part.held_of_gather hgather
      refine ⟨_, .base held (h.resolve_left ?_)⟩
      intro ⟨key, hk, hnone⟩
      have hsome := held key hk
      rw [hnone] at hsome
      cases hsome

theorem compose_eq_missing_iff {name : Text} {key : Key} :
    s.compose sel c = .error (.missingFragment name key) ↔ name = s.name ∧ sel.Misses s c key := by
  constructor
  · intro h
    have hmisses : ∃ missed, sel.Misses s c missed := by
      rw [exists_misses_iff]
      rcases compose_eq_error h with ⟨k, hk, hnone, -⟩ | ⟨hhead, -⟩ | ⟨_, _, _, _, hf⟩
      · exact Or.inl ⟨k, hk, hnone⟩
      · exact Or.inr hhead
      · cases hf
    obtain ⟨missed, hmissed⟩ := hmisses
    have hsame := h.symm.trans (compose_of_misses hmissed)
    cases hsame
    exact ⟨rfl, hmissed⟩
  · intro ⟨hname, h⟩
    rw [hname]
    exact compose_of_misses h

end Spec

/-! ### The unit -/

/-- The sections of one sort that the catalog has for some keys, each with its key. -/
def Catalog.authored (c : Catalog) (pick : Fragment → Option Text) (keys : List Key) :
    List (Key × Text) :=
  keys.filterMap fun key => ((c.lookup key).bind pick).map (key, ·)

theorem Catalog.authored_parts (c : Catalog) (pick : Fragment → Option Text) (keys : List Key) :
    (c.parts keys).filterMap (fun p => (pick p.fragment).map (p.key, ·)) = c.authored pick keys := by
  rw [parts, authored, List.filterMap_filterMap]
  congr 1
  funext key
  cases c.lookup key <;> rfl

theorem Catalog.tail_parts {c : Catalog} {keys : List Key}
    (h : ∀ k ∈ keys, (c.lookup k).isSome = true) : (c.parts keys).tail = c.parts keys.tail := by
  cases keys with
  | nil => rfl
  | cons key keys =>
    obtain ⟨f, hf⟩ := Option.isSome_iff_exists.1 (h key List.mem_cons_self)
    simp [parts, hf]

/-- The unit holds the struct and, in the order of the keys, the declarations beside it; its file is
made of their texts and nothing else but what stands above them. -/
structure SourceUnit.LaidOut (u : SourceUnit) (s : Spec) (sel : Selection) (c : Catalog) : Prop where
  primary : ∃ text, u.primary? = some ⟨.primary, s.name, text⟩
  /-- The sibling sections after the base, rendered one by one. -/
  siblings : List.Forall₂
    (fun (e : Key × Text) d => ∃ text, render s.name e.1 e.2 = .ok text ∧
      d = Declaration.ofSibling s.name text)
    (c.authored (·.sibling) sel.keys.tail) u.siblings
  declarations : u.declarations = u.primary?.toList ++ u.siblings
  roles : (∀ d ∈ u.primary?, d.role = .primary) ∧ ∀ d ∈ u.siblings, d.role = .sibling
  diagnostics : u.diagnostics = sel.diagnostics
  source : u.source = "// <auto-generated/>\n#nullable enable\n".toList ++ "\n".toList ++
    (match s.scope with
      | some scope => "namespace ".toList ++ scope ++ ";\n".toList ++ "\n".toList
      | none => []) ++
    "\n".toList.intercalate (u.declarations.map (·.text))

theorem Assembly.Steps.siblings_authored {s : Spec} {sel : Selection} {c : Catalog} {a : Assembly}
    (h : a.Steps s sel c) : List.Forall₂ (fun e text => render s.name e.1 e.2 = .ok text)
      (c.authored (·.sibling) sel.keys.tail) a.siblings := by
  have hparts := Catalog.parts_of_gather h.parts
  have hheld := Part.held_of_gather h.parts
  have hrendered := h.siblings
  rwa [Part.renderAll, mapM_eq_ok, hparts, Catalog.tail_parts hheld, Catalog.authored_parts]
    at hrendered

namespace Assembly

theorem Steps.laidOut {s : Spec} {sel : Selection} {c : Catalog} {a : Assembly}
    (h : a.Steps s sel c) : (a.unit s sel).LaidOut s sel c where
  primary := ⟨_, SourceUnit.primary?_unit s sel a⟩
  siblings := by
    rw [SourceUnit.siblings_unit, List.forall₂_map_right_iff]
    refine h.siblings_authored.imp fun e text hr => ?_
    exact ⟨text, hr, rfl⟩
  declarations := by
    rw [SourceUnit.siblings_unit, SourceUnit.primary?_unit]
    rfl
  roles := by
    constructor
    · intro d hd
      cases hd
      rfl
    · intro d hd
      exact of_decide_eq_true (List.mem_filter.1 hd).2
  diagnostics := rfl
  source := by
    have hcompose : s.compose sel c = .ok (a.unit s sel) := Spec.compose_eq_ok.2 ⟨a, h, rfl⟩
    rw [Spec.source_of_compose hcompose, SourceUnit.assemble]
    cases s.scope with
    | none => rfl
    | some scope =>
      have hblank : ";\n\n".toList = ";\n".toList ++ "\n".toList := rfl
      rw [SourceUnit.scopeLine_some, hblank, ← List.append_assoc ("namespace ".toList ++ scope)]
      rfl

end Assembly

namespace Spec

/-- Composing any selection: for which key a fragment is missed, what else can stop it, and what the
unit holds. -/
theorem compose_laidOut (s : Spec) (sel : Selection) (c : Catalog) :
    ((∃ name key, s.compose sel c = .error (.missingFragment name key)) ↔
      (∃ key ∈ sel.keys, c.lookup key = none) ∨ sel.keys.head? ≠ some (.base s.backing)) ∧
    (∀ name key, s.compose sel c = .error (.missingFragment name key) ↔
      name = s.name ∧ sel.Misses s c key) ∧
    (∀ f, s.compose sel c = .error f →
      (∃ name key, f = .missingFragment name key) ∨ f.BlamesOneOf s.name sel.keys) ∧
    ∀ u, s.compose sel c = .ok u → u.LaidOut s sel c := by
  refine ⟨?_, fun name key => compose_eq_missing_iff, ?_, ?_⟩
  · rw [← exists_misses_iff]
    constructor
    · intro ⟨name, key, h⟩
      exact ⟨key, (compose_eq_missing_iff.1 h).2⟩
    · intro ⟨key, h⟩
      exact ⟨s.name, key, compose_of_misses h⟩
  · intro f hf
    rcases compose_eq_error hf with ⟨key, -, -, rfl⟩ | ⟨-, rfl⟩ | hblame
    · exact Or.inl ⟨_, _, rfl⟩
    · exact Or.inl ⟨_, _, rfl⟩
    · exact Or.inr hblame
  · intro u hu
    obtain ⟨a, ha, rfl⟩ := compose_eq_ok.1 hu
    exact ha.laidOut

/-! ### A selection made by hand -/

def pairCatalog : Catalog := Catalog.build [
  .put (.base .int) { header := "struct \x7b\x7bTYPE\x7d\x7d\x7b\x7bINTERFACES\x7d\x7d".toList
                      members := validateToken },
  .put (.converter .guid .typeConverter) { sibling := "class \x7b\x7bTYPE\x7d\x7dC\n".toList }]

def pairSpec : Spec where
  name := "A".toList
  scope := some "N".toList
  backing := .int
  converters := ∅
  implementations := ∅

/-- The converter of another backing is selected twice. -/
def pairSelection : Selection where
  keys := [.base .int, .converter .guid .typeConverter, .converter .guid .typeConverter]
  diagnostics := [⟨"A".toList, .converter .typeConverter, .notApplicable .int⟩]

def pairUnit : SourceUnit where
  hintName := "N.A.g.cs".toList
  typeName := "A".toList
  declarations := [⟨.primary, "A".toList, "struct A\n\x7b\n\x7d\n".toList⟩,
    ⟨.sibling, "AC".toList, "class AC\n".toList⟩, ⟨.sibling, "AC".toList, "class AC\n".toList⟩]
  diagnostics := pairSelection.diagnostics
  source := "// <auto-generated/>\n#nullable enable\n\nnamespace N;\n\n".toList ++
    "struct A\n\x7b\n\x7d\n\nclass AC\n\nclass AC\n".toList

theorem compose_pairSelection :
    (pairSpec.compose pairSelection pairCatalog = .ok pairUnit ∧
      pairUnit.LaidOut pairSpec pairSelection pairCatalog) ∧
    pairSpec.compose { keys := [] } pairCatalog =
      .error (.missingFragment "A".toList (.base .int)) ∧
    pairSpec.compose { keys := [.converter .guid .typeConverter, .base .guid] } pairCatalog =
      .error (.missingFragment "A".toList (.base .guid)) := by
  have hrun : pairSpec.compose pairSelection pairCatalog = .ok pairUnit := by decide +kernel
  have hlaid := (compose_laidOut pairSpec pairSelection pairCatalog).2.2.2 _ hrun
  have hempty : Selection.Misses { keys := [] } pairSpec pairCatalog (.base .int) :=
    .base (by decide) (by decide)
  have habsent : Selection.Misses { keys := [.converter .guid .typeConverter, .base .guid] }
      pairSpec pairCatalog (.base .guid) :=
    @Selection.Misses.absent _ _ _ [.converter .guid .typeConverter] [] _ rfl (by decide)
      (by decide)
  exact ⟨⟨hrun, hlaid⟩, ((compose_laidOut _ _ _).2.1 _ _).2 ⟨rfl, hempty⟩,
    ((compose_laidOut _ _ _).2.1 _ _).2 ⟨rfl, habsent⟩⟩

end Spec
end TypedId
