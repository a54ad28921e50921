import TypedId.Catalog.Edit
import TypedId.Proofs.Generation
import TypedId.Proofs.Rendering
import TypedId.Proofs.Selection

/-!
# How a request fails

A run first judges the names, then looks for the base, then composes. Composing what selection chose
finds every fragment, so all that can stop it is a placeholder in a section of a chosen key.
-/

namespace TypedId

open Placeholder

/-! ### Failing steps -/

namespace Placeholder

theorem isPlaceholder_of_render {name : Text} {key : Key} {s : Text} {f : Failure}
    (h : render name key s = .error f) :
    ∃ token, IsPlaceholder token ∧ f = .unresolved name key token := by
  obtain ⟨before, token, after, hleft, hf⟩ := render_eq_error_iff_leftmost.1 h
  exact ⟨token, hleft.holds, hf⟩

theorem isPlaceholder_interfacesToken : IsPlaceholder interfacesToken :=
  ⟨"INTERFACES".toList, by decide, by decide⟩

theorem isPlaceholder_validateToken : IsPlaceholder validateToken :=
  ⟨"VALIDATE".toList, by decide, by decide⟩

end Placeholder

/-- The failure is a placeholder that a section of one of the keys left or lacks. -/
def Failure.BlamesOneOf (f : Failure) (name : Text) (keys : List Key) : Prop :=
  ∃ key ∈ keys, ∃ token, IsPlaceholder token ∧ f = .unresolved name key token

namespace Part

/-- The first key without a fragment stops the gathering. -/
theorem gather_eq_error_iff {name : Text} {c : Catalog} {keys : List Key} {f : Failure} :
    gather name c keys = .error f ↔ ∃ before key after, keys = before ++ key :: after ∧
      (∀ k ∈ before, (c.lookup k).isSome = true) ∧ c.lookup key = none ∧
      f = .missingFragment name key := by
  rw [gather, mapM_eq_error_iff]
  constructor
  · intro h
    obtain ⟨before, key, after, split, hbefore, hkey⟩ := h
    refine ⟨before, key, after, split, fun k hk => ?_, ?_⟩
    · obtain ⟨p, hp⟩ := hbefore k hk
      cases hl : c.lookup k with
      | none =>
        rw [hl] at hp
        cases hp
      | some fragment => rfl
    · cases hl : c.lookup key with
      | none =>
        rw [hl] at hkey
        cases hkey
        exact ⟨rfl, rfl⟩
      | some fragment =>
        rw [hl] at hkey
        cases hkey
  · intro h
    obtain ⟨before, key, after, split, held, lacking, hf⟩ := h
    refine ⟨before, key, after, split, fun k hk => ?_, ?_⟩
    · obtain ⟨fragment, hl⟩ := Option.isSome_iff_exists.1 (held k hk)
      exact ⟨⟨k, fragment⟩, by rw [hl]⟩
    · rw [lacking, hf]

theorem leadingBase_eq_error {s : Spec} {parts : List Part} {f : Failure}
    (h : leadingBase s parts = .error f) :
    (parts.map (·.key)).head? ≠ some (.base s.backing) ∧
      f = .missingFragment s.name (.base s.backing) := by
  have hnot : ∀ base, leadingBase s parts ≠ .ok base := by
    intro base hok
    rw [h] at hok
    cases hok
  constructor
  · intro hhead
    rw [List.head?_map] at hhead
    obtain ⟨base, hbase, hkey⟩ := Option.map_eq_some_iff.1 hhead
    exact hnot base (leadingBase_eq_ok.2 ⟨hbase, hkey⟩)
  · unfold leadingBase at h
    split at h
    · cases h
    · cases h
      rfl

theorem slotted_eq_error {name : Text} {key : Key} {slot : Text} {text : Option Text} {f : Failure}
    (h : slotted name key slot text = .error f) : f = .unresolved name key slot := by
  unfold slotted at h
  split at h
  · cases h
  · cases h
    rfl

theorem renderAll_eq_error {name : Text} {pick : Fragment → Option Text} {parts : List Part}
    {f : Failure} (h : renderAll name pick parts = .error f) :
    f.BlamesOneOf name (parts.map (·.key)) := by
  obtain ⟨e, he, hr⟩ := mapM_eq_error h
  obtain ⟨p, hp, hpick⟩ := List.mem_filterMap.1 he
  obtain ⟨t, -, rfl⟩ := Option.map_eq_some_iff.1 hpick
  obtain ⟨token, ht, hf⟩ := isPlaceholder_of_render hr
  exact ⟨p.key, List.mem_map_of_mem hp, token, ht, hf⟩

end Part

theorem Failure.BlamesOneOf.mono {f : Failure} {name : Text} {keys keys' : List Key}
    (h : f.BlamesOneOf name keys) (hsub : ∀ key ∈ keys, key ∈ keys') : f.BlamesOneOf name keys' := by
  obtain ⟨key, hk, htoken⟩ := h
  exact ⟨key, hsub key hk, htoken⟩

/-! ### Composing -/

/-- Composing any selection fails for a key without a fragment, for want of a leading base, or for a
placeholder in a section of a selected key. -/
theorem Spec.compose_eq_error {s : Spec} {sel : Selection} {c : Catalog} {f : Failure}
    (h : s.compose sel c = .error f) :
    (∃ key ∈ sel.keys, c.lookup key = none ∧ f = .missingFragment s.name key) ∨
    (sel.keys.head? ≠ some (.base s.backing) ∧ f = .missingFragment s.name (.base s.backing)) ∨
    f.BlamesOneOf s.name sel.keys := by
  rcases bind_eq_error.1 h with hgather | ⟨parts, hparts, h⟩
  · obtain ⟨before, key, after, hkeys, -, hnone, hf⟩ := Part.gather_eq_error_iff.1 hgather
    exact Or.inl ⟨key, by simp [hkeys], hnone, hf⟩
  right
  have hkeys : parts.map (·.key) = sel.keys := (Part.gather_eq_ok.1 hparts).1
  rcases bind_eq_error.1 h with hlead | ⟨base, hbase, h⟩
  · left
    have hmiss := Part.leadingBase_eq_error hlead
    rwa [hkeys] at hmiss
  right
  have hmem : ∀ p ∈ parts, p.key ∈ sel.keys := fun p hp => hkeys ▸ List.mem_map_of_mem hp
  have hbasekey : base.key ∈ sel.keys :=
    hmem base (List.mem_of_head? (Part.leadingBase_eq_ok.1 hbase).1)
  -- the sections of some of the parts are sections of selected keys
  have hsections : ∀ {pick : Fragment → Option Text} {few : List Part}, (∀ p ∈ few, p ∈ parts) →
      Part.renderAll s.name pick few = .error f → f.BlamesOneOf s.name sel.keys := by
    intro pick few hsub hr
    refine (Part.renderAll_eq_error hr).mono fun key hk => ?_
    obtain ⟨p, hp, rfl⟩ := List.mem_map.1 hk
    exact hmem p (hsub p hp)
  have hrender : ∀ {t : Text}, render s.name base.key t = .error f →
      f.BlamesOneOf s.name sel.keys := fun hr => ⟨base.key, hbasekey, isPlaceholder_of_render hr⟩
  rcases bind_eq_error.1 h with hslot | ⟨headerText, -, h⟩
  · exact ⟨_, hbasekey, _, isPlaceholder_interfacesToken, Part.slotted_eq_error hslot⟩
  rcases bind_eq_error.1 h with hslot | ⟨bodyText, -, h⟩
  · exact ⟨_, hbasekey, _, isPlaceholder_validateToken, Part.slotted_eq_error hslot⟩
  rcases bind_eq_error.1 h with hhooks | ⟨hooks, -, h⟩
  · exact hsections (fun _ hp => hp) hhooks
  rcases bind_eq_error.1 h with hheader | ⟨header, -, h⟩
  · exact hrender hheader
  rcases bind_eq_error.1 h with hbody | ⟨body, -, h⟩
  · exact hrender hbody
  rcases bind_eq_error.1 h with hmembers | ⟨members, -, h⟩
  · refine hsections (fun p hp => ?_) hmembers
    rcases List.mem_append.1 hp with hp | hp
    · exact List.mem_of_mem_filter hp
    · exact List.mem_of_mem_filter hp
  rcases bind_eq_error.1 h with hlines | ⟨lines, -, h⟩
  · exact hsections (fun _ hp => List.mem_of_mem_tail hp) hlines
  rcases bind_eq_error.1 h with hsiblings | ⟨siblings, -, h⟩
  · exact hsections (fun _ hp => List.mem_of_mem_tail hp) hsiblings
  · cases h

theorem Spec.compose_select_eq_error {s : Spec} {sel : Selection} {c : Catalog} {f : Failure}
    (hsel : s.select c = .ok sel) (h : s.compose sel c = .error f) :
    f.BlamesOneOf s.name sel.keys := by
  obtain ⟨hbase, rfl⟩ := select_eq_ok.1 hsel
  have hfits := fits_chosen hbase
  -- selection puts the base first and holds a fragment for each key, so two causes cannot be
  rcases compose_eq_error h with ⟨key, hk, hnone, -⟩ | ⟨hhead, -⟩ | hblame
  · have hheld := (hfits.held key hk).1
    rw [hnone] at hheld
    cases hheld
  · exact absurd hfits.base_first hhead
  · exact hblame

namespace Request

theorem resolve_eq_error {r : Request} {d : Defaults} {f : Failure}
    (h : r.resolve d = .error f) : ¬ r.WellNamed ∧ ∃ cause, f = .configuration r.name cause := by
  constructor
  · intro hr
    rw [resolve_eq_ok.2 ⟨hr, rfl⟩] at h
    cases h
  · unfold resolve at h
    split at h
    · cases h
      exact ⟨_, rfl⟩
    · split at h
      · cases h
        exact ⟨_, rfl⟩
      · cases h

/-- What a failure of a request says about the request and the catalog. -/
structure Explains (r : Request) (d : Defaults) (c : Catalog) (f : Failure) : Prop where
  configuration : (∃ name cause, f = .configuration name cause) ↔ ¬ r.WellNamed
  missing : (∃ name key, f = .missingFragment name key) ↔
    r.WellNamed ∧ c.lookup (.base (r.filled d).backing) = none
  missing_base : ∀ name key, f = .missingFragment name key → key = .base (r.filled d).backing
  /-- What is left is a placeholder in a section of a chosen key. -/
  unresolved : r.WellNamed → (c.lookup (.base (r.filled d).backing)).isSome = true →
    ∃ sel, (r.filled d).select c = .ok sel ∧ ∃ key ∈ sel.keys, ∃ token,
      IsPlaceholder token ∧ f = .unresolved r.name key token
  isScoped : f.isScoped = true
  typeName : f.typeName? = some r.name
  isDefect : f.isDefect = true ↔ r.WellNamed

theorem explains_configuration {r : Request} (h : ¬ r.WellNamed) (d : Defaults) (c : Catalog)
    (cause : Rejection) : r.Explains d c (.configuration r.name cause) where
  configuration := iff_of_true ⟨_, _, rfl⟩ h
  missing := iff_of_false (by simp) fun hr => h hr.1
  missing_base _ _ e := by cases e
  unresolved hr := absurd hr h
  isScoped := rfl
  typeName := rfl
  isDefect := iff_of_false (by simp [Failure.isDefect]) h

theorem explains_missingBase {r : Request} {d : Defaults} {c : Catalog} (h : r.WellNamed)
    (hbase : c.lookup (.base (r.filled d).backing) = none) :
    r.Explains d c (.missingFragment r.name (.base (r.filled d).backing)) where
  configuration := iff_of_false (by simp) (not_not_intro h)
  missing := iff_of_true ⟨_, _, rfl⟩ ⟨h, hbase⟩
  missing_base _ _ e := by
    cases e
    rfl
  unresolved _ hsome := by
    rw [hbase] at hsome
    cases hsome
  isScoped := rfl
  typeName := rfl
  isDefect := iff_of_true rfl h

theorem explains_unresolved {r : Request} {d : Defaults} {c : Catalog} {sel : Selection}
    {f : Failure} (h : r.WellNamed) (hsel : (r.filled d).select c = .ok sel)
    (hf : f.BlamesOneOf r.name sel.keys) : r.Explains d c f := by
  have hbase : c.lookup (.base (r.filled d).backing) ≠ none :=
    Option.isSome_iff_ne_none.1 (Spec.select_eq_ok.1 hsel).1
  obtain ⟨key, hk, token, ht, rfl⟩ := hf
  exact {
    configuration := iff_of_false (by simp) (not_not_intro h)
    missing := iff_of_false (by simp) fun hr => hbase hr.2
    missing_base := fun _ _ e => by cases e
    unresolved := fun _ _ => ⟨sel, hsel, key, hk, token, ht, rfl⟩
    isScoped := rfl
    typeName := rfl
    isDefect := iff_of_true rfl h }

/-- A request with a bad name, or without a base, fails; and every failure is explained by the
request and the catalog. -/
theorem generate_explained (r : Request) (d : Defaults) (c : Catalog) :
    (¬ r.WellNamed ∨ c.lookup (.base (r.filled d).backing) = none →
      ∃ f, r.generate d c = .error f) ∧
    ∀ f, r.generate d c = .error f → r.Explains d c f := by
  have hselect : c.lookup (.base (r.filled d).backing) = none → (r.filled d).select c =
      .error (.missingFragment r.name (.base (r.filled d).backing)) := by
    intro hnone
    rw [Spec.select_eq, hnone]
    rfl
  by_cases hr : r.WellNamed
  · rw [generate_of_wellNamed hr]
    constructor
    · intro h
      have hnone := h.resolve_left (not_not_intro hr)
      exact ⟨_, by rw [hselect hnone]; rfl⟩
    · intro f hf
      rcases bind_eq_error.1 hf with hsel | ⟨sel, hsel, hcompose⟩
      · cases hbase : c.lookup (.base (r.filled d).backing) with
        | none =>
          rw [hselect hbase] at hsel
          cases hsel
          exact explains_missingBase hr hbase
        | some fragment =>
          rw [Spec.select_eq, hbase] at hsel
          cases hsel
      · exact explains_unresolved hr hsel (Spec.compose_select_eq_error hsel hcompose)
  · cases hres : r.resolve d with
    | ok s => exact absurd (resolve_eq_ok.1 hres).1 hr
    | error g =>
      have hgen : r.generate d c = .error g := by
        rw [generate, hres]
        rfl
      obtain ⟨cause, rfl⟩ := (resolve_eq_error hres).2
      rw [hgen]
      refine ⟨fun _ => ⟨_, rfl⟩, fun f hf => ?_⟩
      cases hf
      exact explains_configuration hr d c cause

/-- The base header of this catalog has no slot for the interfaces. -/
def slotlessCatalog : Catalog :=
  Catalog.build [.put (.base .int) { header := "struct".toList, members := validateToken }]

def slotlessRequest : Request where
  name := "A".toList
  backing := .explicit .int
  converters := .explicit ∅
  implementations := .explicit ∅

theorem generate_slotlessCatalog :
    slotlessRequest.generate .builtIn slotlessCatalog =
      .error (.unresolved "A".toList (.base .int) interfacesToken) ∧
    slotlessRequest.Explains .builtIn slotlessCatalog
      (.unresolved "A".toList (.base .int) interfacesToken) := by
  have hrun : slotlessRequest.generate .builtIn slotlessCatalog =
      .error (.unresolved "A".toList (.base .int) interfacesToken) := by
    decide +kernel
  exact ⟨hrun, (generate_explained slotlessRequest .builtIn slotlessCatalog).2 _ hrun⟩

end Request
end TypedId
