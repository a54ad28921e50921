import TypedId.Proofs.BuiltinUnit
import TypedId.Proofs.Sections

/-!
# Pages of the built-in catalog

The source of a built-in unit is a page that namespace, name, backing and the chosen kinds
determine. For valid names the page is legible.
-/

namespace TypedId

open Placeholder Text Outline

theorem filterMap_if_some {α β : Type} (p : α → Prop) [DecidablePred p] (f : α → β) (l : List α) :
    (l.filterMap fun a => if p a then some (f a) else none) = (l.filter p).map f := by
  induction l with
  | nil => rfl
  | cons a l ih => by_cases h : p a <;> simp [h, ih]

theorem filterMap_if_none {α β : Type} (p : α → Prop) [DecidablePred p] (f : α → β) (l : List α) :
    (l.filterMap fun a => if p a then none else some (f a)) = (l.filter (¬ p ·)).map f := by
  induction l with
  | nil => rfl
  | cons a l ih => by_cases h : p a <;> simp [h, ih]

namespace Builtin

/-! ### The page of a selection -/

/-- The lines before the struct. -/
def frontLines : Option Text → List Text
  | none => ["// <auto-generated/>".toList, "#nullable enable".toList, []]
  | some scope => ["// <auto-generated/>".toList, "#nullable enable".toList, [],
      "namespace ".toList ++ scope ++ [';'], []]

/-- The lines inside the validation method. -/
def hookOf (b : Backing) (implementations : List Implementation) : Lines :=
  (implementations.filter (· = .validation)).flatMap fun _ => hookLines b

/-- The groups of lines after those of the base. -/
def memberGroups (b : Backing) (converters : List Converter)
    (implementations : List Implementation) : List Lines :=
  (implementations.filter (¬ · = .validation)).map (memberLines b) ++
    (converters.filter (· = .efCoreValueConverter)).map fun _ => indent entityFramework

def groups (b : Backing) (converters : List Converter) (implementations : List Implementation) :
    List Lines :=
  bodyLines b (hookOf b implementations) :: memberGroups b converters implementations

def page (scope : Option Text) (n : Text) (b : Backing) (converters : List Converter)
    (implementations : List Implementation) : Page where
  front := frontLines scope
  attributes := (converters.filterMap fun k => (converter b k).attributeLine).map
    (substitute typeToken n)
  header := headerOpening ++ n ++ Interfaces.heading (Interfaces.listed n implementations)
  blocks := (groups b converters implementations).map (List.map (spell b n))
  adapters := (converters.filter (¬ · = .efCoreValueConverter)).map (adapter b n)

/-! ### The sections of a selection -/

def kindParts (b : Backing) (converters : List Converter) (implementations : List Implementation) :
    List Part :=
  converters.map (fun k => ⟨.converter b k, converter b k⟩) ++
    implementations.map fun k => ⟨.implementation b k, (implementation b k).getD {}⟩

/-- The same, after the base. -/
def baseParts (b : Backing) (converters : List Converter) (implementations : List Implementation) :
    List Part :=
  ⟨.base b, base b⟩ :: kindParts b converters implementations

theorem parts_kinds {b : Backing} {converters : List Converter}
    {implementations : List Implementation}
    (h : ∀ k ∈ implementations, (implementation b k).isSome = true) :
    catalog.parts (converters.map (.converter b) ++ implementations.map (.implementation b)) =
      kindParts b converters implementations := by
  have hparts : ∀ keys, catalog.parts keys = keys.filterMap fun k => (fragment k).map (Part.mk k) :=
    fun keys => congrArg (keys.filterMap ·) (funext fun k => by rw [lookup_catalog])
  rw [hparts, List.filterMap_append, List.filterMap_map, List.filterMap_map, kindParts]
  congr 1
  · exact congrFun List.filterMap_eq_map converters
  · rw [← List.filterMap_eq_map]
    refine List.filterMap_congr fun k hk => ?_
    obtain ⟨f, hf⟩ := Option.isSome_iff_exists.1 (h k hk)
    have hfragment : fragment (.implementation b k) = some f := hf
    rw [Function.comp_apply, Function.comp_apply, hfragment, hf]
    rfl

section

variable {b : Backing} {converters : List Converter} {implementations : List Implementation}

theorem filter_baseParts : (baseParts b converters implementations).filter Part.isImplementation ++
    (baseParts b converters implementations).filter Part.isConverter =
      kindParts b [] implementations ++ kindParts b converters [] := by
  have hbase : (⟨.base b, base b⟩ : Part).isImplementation = false ∧
      (⟨.base b, base b⟩ : Part).isConverter = false := ⟨rfl, rfl⟩
  rw [baseParts, List.filter_cons_of_neg (by simp [hbase.1]),
    List.filter_cons_of_neg (by simp [hbase.2])]
  simp [kindParts, List.filter_map, Function.comp_def, Part.isImplementation, Part.isConverter]

theorem sections_kindParts (pick : Fragment → Option Text) :
    Part.sections pick (kindParts b converters implementations) =
      converters.filterMap (fun k => pick (converter b k)) ++
        implementations.filterMap fun k => pick ((implementation b k).getD {}) := by
  rw [Part.sections, kindParts, List.filterMap_append, List.filterMap_map, List.filterMap_map]
  rfl

theorem filterMap_implementations
    (h : ∀ k ∈ implementations, (implementation b k).isSome = true)
    (pick : Fragment → Option Text) :
    (implementations.filterMap fun k => pick ((implementation b k).getD {})) =
      implementations.filterMap fun k =>
        if k = .validation then pick { hook := written b (hookLines b) }
        else pick { members := written b (memberLines b k) } := by
  refine List.filterMap_congr fun k hk => ?_
  obtain ⟨f, hf⟩ := Option.isSome_iff_exists.1 (h k hk)
  rw [hf, Option.getD_some, implementation_sections hf]
  split <;> rfl

variable (h : ∀ k ∈ implementations, (implementation b k).isSome = true)

include h

theorem hooks_baseParts :
    (Part.sections (·.hook) (baseParts b converters implementations)).flatten =
      written b (hookOf b implementations) := by
  have hbase : Part.sections (·.hook) (baseParts b converters implementations) =
      Part.sections (·.hook) (kindParts b converters implementations) := rfl
  have hconverters : converters.filterMap (fun k => (converter b k).hook) = [] :=
    List.filterMap_eq_nil_iff.2 fun k _ => converter_hook b k
  rw [hbase, sections_kindParts, hconverters, List.nil_append, filterMap_implementations h,
    filterMap_if_some, hookOf]
  induction implementations.filter (· = .validation) with
  | nil => rfl
  | cons k kinds ih =>
    rw [List.map_cons, List.flatten_cons, ih, List.flatMap_cons, written_append]

theorem members_kindParts :
    Part.sections (·.members) (kindParts b [] implementations ++ kindParts b converters []) =
      (memberGroups b converters implementations).map (written b) := by
  have hconverters : (fun k => (converter b k).members) = fun k =>
      if k = .efCoreValueConverter then some (written b (indent entityFramework)) else none :=
    funext (converter_members b)
  have hnested : Part.sections (·.members) (kindParts b converters []) =
      (converters.filter (· = .efCoreValueConverter)).map fun _ =>
        written b (indent entityFramework) := by
    rw [sections_kindParts, hconverters, filterMap_if_some, List.filterMap_nil, List.append_nil]
  have hmembers : Part.sections (·.members) (kindParts b [] implementations) =
      (implementations.filter (¬ · = .validation)).map fun k => written b (memberLines b k) := by
    rw [sections_kindParts, List.filterMap_nil, List.nil_append, filterMap_implementations h,
      filterMap_if_none]
  have happend : Part.sections (·.members) (kindParts b [] implementations ++
      kindParts b converters []) = Part.sections (·.members) (kindParts b [] implementations) ++
        Part.sections (·.members) (kindParts b converters []) := List.filterMap_append
  rw [happend, hmembers, hnested, memberGroups, List.map_append, List.map_map, List.map_map]
  simp only [Function.comp_def]

theorem attributeLines_kindParts :
    Part.sections (·.attributeLine) (kindParts b converters implementations) =
      converters.filterMap fun k => (converter b k).attributeLine := by
  rw [sections_kindParts, filterMap_implementations h]
  simp

theorem siblings_kindParts :
    Part.sections (·.sibling) (kindParts b converters implementations) =
      (converters.filter (¬ · = .efCoreValueConverter)).map fun k =>
        written b (adapterLines b k) := by
  have hconverters : (fun k => (converter b k).sibling) = fun k =>
      if k = .efCoreValueConverter then none else some (written b (adapterLines b k)) :=
    funext (converter_sibling b)
  rw [sections_kindParts, filterMap_implementations h, hconverters, filterMap_if_none]
  simp

end

/-! ### The source -/

theorem ofLines_frontLines (scope : Option Text) :
    ofLines (frontLines scope) = SourceUnit.preamble ++ SourceUnit.scopeLine scope := by
  have hpreamble : ofLines ["// <auto-generated/>".toList, "#nullable enable".toList, []] =
      SourceUnit.preamble := by decide
  cases scope with
  | none => rw [frontLines, hpreamble, SourceUnit.scopeLine_none, List.append_nil]
  | some scope =>
    have hsplit : frontLines (some scope) =
        ["// <auto-generated/>".toList, "#nullable enable".toList, []] ++
          ["namespace ".toList ++ scope ++ [';'], []] := rfl
    have hend : ";\n\n".toList = [';', '\n', '\n'] := by decide
    rw [hsplit, ofLines_append, hpreamble, SourceUnit.scopeLine_some, hend, ofLines_cons,
      ofLines_cons, ofLines_nil]
    simp

theorem fit_groups (b : Backing) (converters : List Converter)
    (implementations : List Implementation) :
    ∀ g ∈ groups b converters implementations, Fit g := by
  have hhook : Fit (hookOf b implementations) := by
    rw [hookOf]
    induction implementations.filter (· = .validation) with
    | nil => exact fit_nil
    | cons k kinds ih => exact (fit_hookLines b).append ih
  refine List.forall_mem_cons.2 ⟨fit_bodyLines b hhook, List.forall_mem_append.2 ⟨?_, ?_⟩⟩
  · exact List.forall_mem_map.2 fun k _ => fit_memberLines b k
  · exact List.forall_mem_map.2 fun _ _ => fit_entityFramework

section

variable (scope : Option Text) (n : Text) (b : Backing) (converters : List Converter)
  (implementations : List Implementation)

theorem blocks_page : (groups b converters implementations).map
    (fun g => substitute typeToken n (written b g)) =
      (page scope n b converters implementations).blocks.map ofLines := by
  rw [page, List.map_map]
  refine List.map_congr_left fun g hg => ?_
  exact substitute_written b n (fit_groups b converters implementations g hg).sober

theorem header_page : substitute typeToken n
    ("readonly partial struct ".toList ++ typeToken ++ Interfaces.clause implementations) =
      (page scope n b converters implementations).header := by
  rw [List.append_assoc, substitute_typeToken_append (by decide),
    substitute_token_append isPlaceholder_typeToken.ne_nil, Interfaces.clause_eq_heading,
    Interfaces.substitute_heading, List.map_map, page, Interfaces.listed, List.append_assoc]
  rfl

theorem adapters_page : (converters.filter (¬ · = .efCoreValueConverter)).map
    (fun k => substitute typeToken n (written b (adapterLines b k))) =
      (page scope n b converters implementations).adapters.map fun a => ofLines a.lines := by
  rw [page, List.map_map]
  refine List.map_congr_left fun k hk => ?_
  have hne : k ≠ .efCoreValueConverter := by simpa using (List.mem_filter.1 hk).2
  rw [substitute_written b n (all_isSober_adapterLines b k), Function.comp_apply,
    lines_adapter b n hne]

end

/-- The draft of chosen kinds, with the name in it, is their page. -/
theorem shows_draft {b : Backing} {converters : List Converter}
    {implementations : List Implementation}
    (h : ∀ k ∈ implementations, (implementation b k).isSome = true) (scope : Option Text)
    (n : Text) : (page scope n b converters implementations).Shows
      (((frame b).draft ⟨.base b, base b⟩ (baseParts b converters implementations)
        implementations).named n) := by
  have hnamed : ∀ a : Assembly, (a.named n).blocks = a.blocks.map (substitute typeToken n) :=
    fun _ => rfl
  have hdraft : ∀ (fr : Frame) (base : Part) (parts : List Part) (kinds : List Implementation),
      (fr.draft base parts kinds).blocks = fr.body (Part.sections (·.hook) parts).flatten ::
        Part.sections (·.members)
          (parts.filter Part.isImplementation ++ parts.filter Part.isConverter) :=
    fun _ _ _ _ => rfl
  -- attribute lines and siblings are read after the base
  refine ⟨?_, header_page scope n b converters implementations, ?_, ?_⟩
  · change List.map (substitute typeToken n) (Part.sections (·.attributeLine)
      (kindParts b converters implementations)) = _
    rw [attributeLines_kindParts h]
    rfl
  · rw [hnamed, hdraft, hooks_baseParts h, frame_body, filter_baseParts, members_kindParts h,
      ← blocks_page, groups, List.map_cons, List.map_cons, List.map_map]
    simp only [Function.comp_def]
  · change List.map (substitute typeToken n) (Part.sections (·.sibling)
      (kindParts b converters implementations)) = _
    rw [siblings_kindParts h, List.map_map, ← adapters_page]
    simp only [Function.comp_def]

def pageOf (s : Spec) : Page :=
  page s.scope s.name s.backing (selection s).converters (selection s).implementations

theorem isSome_implementation {s : Spec} {k : Implementation}
    (h : k ∈ (selection s).implementations) : (implementation s.backing k).isSome = true := by
  obtain ⟨b, hk⟩ := Spec.mem_implementations.1 h
  obtain rfl : b = s.backing := Spec.backing_of_mem_chosen hk
  have hheld := Spec.held_chosen (by rw [lookup_catalog]; rfl) hk
  rwa [lookup_catalog] at hheld

theorem draft_eq (s : Spec) : draft s = (frame s.backing).draft ⟨.base s.backing, base s.backing⟩
    (baseParts s.backing (selection s).converters (selection s).implementations)
    (selection s).implementations := by
  have hkeys : (selection s).keys = .base s.backing ::
      ((selection s).converters.map (.converter s.backing) ++
        (selection s).implementations.map (.implementation s.backing)) := s.keys_by_family catalog
  have hparts : catalog.parts (selection s).keys =
      baseParts s.backing (selection s).converters (selection s).implementations := by
    rw [baseParts, ← parts_kinds fun k hk => isSome_implementation hk, hkeys, Catalog.parts,
      List.filterMap_cons_some (by rw [lookup_catalog]; rfl)]
    rfl
  rw [draft, hparts]

theorem shows_pageOf (s : Spec) : (pageOf s).Shows ((draft s).named s.name) := by
  rw [draft_eq]
  exact shows_draft (fun k hk => isSome_implementation hk) s.scope s.name

end Builtin

/-- A well-named request gets the unit that its page shows. -/
theorem Request.generate_pageOf {r : Request} (h : r.WellNamed) (d : Defaults) :
    ∃ a, r.generate d Builtin.catalog =
        .ok (a.unit (r.filled d) (Builtin.selection (r.filled d))) ∧
      (Builtin.pageOf (r.filled d)).Shows a ∧
      (a.unit (r.filled d) (Builtin.selection (r.filled d))).source =
        (Builtin.pageOf (r.filled d)).source := by
  have hsteps := Builtin.steps_draft (s := r.filled d) h.name
  have hshows := Builtin.shows_pageOf (r.filled d)
  refine ⟨_, Request.generate_eq_ok.2 ⟨_, _, h, Builtin.select_eq_ok _, hsteps, rfl⟩, hshows, ?_⟩
  rw [Assembly.source_unit]
  exact hshows.text_eq (Builtin.ofLines_frontLines _)

end TypedId
