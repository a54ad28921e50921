import TypedId.Composition
import TypedId.Proofs.Outcomes
import TypedId.Proofs.Scanner

/-!
# The steps of composing

Composing runs through a fixed row of steps, any of which can fail. A unit comes about exactly when
every step succeeds; each step has its own rule for when it does and what it gives.
-/

namespace TypedId

namespace Part

/-! ### Single steps -/

theorem gather_eq_ok {name : Text} {c : Catalog} {keys : List Key} {parts : List Part} :
    gather name c keys = .ok parts ↔
      parts.map (·.key) = keys ∧ ∀ p ∈ parts, c.lookup p.key = some p.fragment := by
  rw [gather, mapM_eq_ok]
  induction parts generalizing keys with
  | nil => cases keys <;> simp
  | cons p parts ih =>
    cases keys with
    | nil => simp
    | cons key keys =>
      rw [List.forall₂_cons, ih]
      cases hl : c.lookup key with
      | none =>
        refine iff_of_false (fun h => by cases h.1) ?_
        rintro ⟨hk, hall⟩
        obtain ⟨rfl, -⟩ := List.cons.inj hk
        rw [hall p List.mem_cons_self] at hl
        cases hl
      | some f =>
        constructor
        · rintro ⟨hp, hk, hall⟩
          cases hp
          exact ⟨by simp [hk], by simpa [hl] using hall⟩
        · rintro ⟨hk, hall⟩
          obtain ⟨rfl, htail⟩ := List.cons.inj hk
          obtain ⟨hp, hall⟩ := List.forall_mem_cons.1 hall
          rw [hl] at hp
          cases hp
          exact ⟨rfl, htail, hall⟩

theorem held_of_gather {name : Text} {c : Catalog} {keys : List Key} {parts : List Part}
    (h : gather name c keys = .ok parts) : ∀ k ∈ keys, (c.lookup k).isSome = true := by
  obtain ⟨rfl, hlookup⟩ := gather_eq_ok.1 h
  intro k hk
  obtain ⟨p, hp, rfl⟩ := List.mem_map.1 hk
  rw [hlookup p hp, Option.isSome_some]

theorem leadingBase_eq_ok {s : Spec} {parts : List Part} {base : Part} :
    leadingBase s parts = .ok base ↔ parts.head? = some base ∧ base.key = .base s.backing := by
  unfold leadingBase
  cases parts.head? with
  | none => simp
  | some p =>
    by_cases hk : p.key = .base s.backing
    · simp only [Option.filter, hk, decide_true, if_true, Except.ok.injEq, Option.some.injEq]
      constructor
      · rintro rfl
        exact ⟨rfl, hk⟩
      · exact fun h => h.1
    · simp only [Option.filter, hk, decide_false, Bool.false_eq_true, if_false]
      refine iff_of_false (by simp) ?_
      rintro ⟨h, hb⟩
      cases h
      exact hk hb

theorem slotted_eq_ok {name : Text} {key : Key} {slot : Text} {text : Option Text} {s : Text} :
    slotted name key slot text = .ok s ↔ text = some s ∧ slot <:+: s := by
  unfold slotted
  cases text with
  | none => simp
  | some t =>
    rw [Option.filter, ← Text.occursIn_iff_infix]
    cases ho : Text.occursIn slot t with
    | true =>
      simp only [if_true, Except.ok.injEq, Option.some.injEq]
      constructor
      · rintro rfl
        exact ⟨rfl, ho⟩
      · exact fun h => h.1
    | false =>
      refine iff_of_false (by simp) ?_
      rintro ⟨h, hs⟩
      cases h
      rw [ho] at hs
      cases hs

/-- The sections of one sort that some parts have, as authored. -/
def sections (pick : Fragment → Option Text) (parts : List Part) : List Text :=
  parts.filterMap fun p => pick p.fragment

theorem mem_sections {pick : Fragment → Option Text} {parts : List Part} {t : Text} :
    t ∈ sections pick parts ↔ ∃ p ∈ parts, pick p.fragment = some t := by
  simp [sections]

theorem renderAll_eq_ok {name : Text} {pick : Fragment → Option Text} {parts : List Part}
    {texts : List Text} : renderAll name pick parts = .ok texts ↔
      texts = (sections pick parts).map (Text.substitute Placeholder.typeToken name) ∧
        ∀ t ∈ texts, ¬ Placeholder.Leftover t := by
  simp only [renderAll, mapM_eq_ok, sections, Placeholder.render_eq_ok]
  induction parts generalizing texts with
  | nil => cases texts <;> simp
  | cons p parts ih =>
    cases hp : pick p.fragment with
    | none => simpa [hp] using ih
    | some t =>
      cases texts with
      | nil => simp [hp]
      | cons r texts =>
        simp only [List.filterMap_cons, hp, Option.map_some, List.forall₂_cons, ih,
          List.map_cons, List.cons.injEq, List.forall_mem_cons]
        exact and_and_and_comm

end Part

namespace Catalog

/-- The parts of some keys, as far as the catalog has them. -/
def parts (c : Catalog) (keys : List Key) : List Part :=
  keys.filterMap fun k => (c.lookup k).map (Part.mk k)

theorem mem_parts {c : Catalog} {keys : List Key} {p : Part} (h : p ∈ c.parts keys) :
    p.key ∈ keys ∧ c.lookup p.key = some p.fragment := by
  obtain ⟨k, hk, hp⟩ := List.mem_filterMap.1 h
  obtain ⟨f, hf, rfl⟩ := Option.map_eq_some_iff.1 hp
  exact ⟨hk, hf⟩

theorem map_key_parts {c : Catalog} {keys : List Key}
    (h : ∀ k ∈ keys, (c.lookup k).isSome = true) : (c.parts keys).map (·.key) = keys := by
  induction keys with
  | nil => rfl
  | cons k keys ih =>
    obtain ⟨hk, hrest⟩ := List.forall_mem_cons.1 h
    obtain ⟨f, hf⟩ := Option.isSome_iff_exists.1 hk
    rw [parts, List.filterMap_cons_some (by rw [hf]; rfl), List.map_cons]
    exact congrArg (k :: ·) (ih hrest)

theorem gather_parts {c : Catalog} {keys : List Key}
    (h : ∀ k ∈ keys, (c.lookup k).isSome = true) (name : Text) :
    Part.gather name c keys = .ok (c.parts keys) :=
  Part.gather_eq_ok.2 ⟨map_key_parts h, fun _ hp => (mem_parts hp).2⟩

theorem parts_of_gather {c : Catalog} {name : Text} {keys : List Key} {parts : List Part}
    (h : Part.gather name c keys = .ok parts) : parts = c.parts keys := by
  rw [gather_parts (Part.held_of_gather h)] at h
  exact (Except.ok.inj h).symm

end Catalog

/-! ### All steps -/

/-- What the steps of composing give, one after the other. -/
structure Assembly where
  parts : List Part
  base : Part
  /-- The base header as authored, with its slot. -/
  headerText : Text
  /-- The base members as authored, with their slot. -/
  bodyText : Text
  hooks : List Text
  header : Text
  body : Text
  members : List Text
  attributeLines : List Text
  siblings : List Text

namespace Assembly

open Placeholder

/-- Every step of composing the selection succeeds with what the assembly says. -/
structure Steps (s : Spec) (sel : Selection) (c : Catalog) (a : Assembly) : Prop where
  parts : Part.gather s.name c sel.keys = .ok a.parts
  base : Part.leadingBase s a.parts = .ok a.base
  headerText :
    Part.slotted s.name a.base.key interfacesToken a.base.fragment.header = .ok a.headerText
  bodyText :
    Part.slotted s.name a.base.key validateToken a.base.fragment.members = .ok a.bodyText
  hooks : Part.renderAll s.name (·.hook) a.parts = .ok a.hooks
  header : render s.name a.base.key
    (Text.substitute interfacesToken (Interfaces.clause sel.implementations) a.headerText) =
      .ok a.header
  body : render s.name a.base.key (Text.substitute validateToken a.hooks.flatten a.bodyText) =
    .ok a.body
  members : Part.renderAll s.name (·.members)
    (a.parts.filter Part.isImplementation ++ a.parts.filter Part.isConverter) = .ok a.members
  attributeLines : Part.renderAll s.name (·.attributeLine) a.parts.tail = .ok a.attributeLines
  siblings : Part.renderAll s.name (·.sibling) a.parts.tail = .ok a.siblings

theorem Steps.unique {s : Spec} {sel : Selection} {c : Catalog} {a b : Assembly}
    (ha : Steps s sel c a) (hb : Steps s sel c b) : a = b := by
  obtain ⟨parts, base, headerText, bodyText, hooks, header, body, members, lines, siblings⟩ := a
  obtain ⟨parts', base', headerText', bodyText', hooks', header', body', members', lines',
    siblings'⟩ := b
  obtain rfl : parts = parts' := Except.ok.inj (ha.parts.symm.trans hb.parts)
  obtain rfl : base = base' := Except.ok.inj (ha.base.symm.trans hb.base)
  obtain rfl : headerText = headerText' :=
    Except.ok.inj (ha.headerText.symm.trans hb.headerText)
  obtain rfl : bodyText = bodyText' := Except.ok.inj (ha.bodyText.symm.trans hb.bodyText)
  obtain rfl : hooks = hooks' := Except.ok.inj (ha.hooks.symm.trans hb.hooks)
  obtain rfl : header = header' := Except.ok.inj (ha.header.symm.trans hb.header)
  obtain rfl : body = body' := Except.ok.inj (ha.body.symm.trans hb.body)
  obtain rfl : members = members' := Except.ok.inj (ha.members.symm.trans hb.members)
  obtain rfl : lines = lines' := Except.ok.inj (ha.attributeLines.symm.trans hb.attributeLines)
  obtain rfl : siblings = siblings' := Except.ok.inj (ha.siblings.symm.trans hb.siblings)
  rfl

/-- The texts between the braces of the struct. -/
def blocks (a : Assembly) : List Text := a.body :: a.members

/-- The struct and the declarations beside it. -/
def declarations (typeName : Text) (a : Assembly) : List Declaration :=
  ⟨.primary, typeName, structText a.attributeLines a.header a.blocks⟩
    :: a.siblings.map (Declaration.ofSibling typeName)

/-- The unit that the steps amount to. -/
def unit (s : Spec) (sel : Selection) (a : Assembly) : SourceUnit where
  hintName := s.hintName
  typeName := s.name
  declarations := a.declarations s.name
  diagnostics := sel.diagnostics
  source := SourceUnit.assemble s.scope (a.declarations s.name)

end Assembly

namespace SourceUnit

theorem primary?_unit (s : Spec) (sel : Selection) (a : Assembly) : (a.unit s sel).primary? =
    some ⟨.primary, s.name, structText a.attributeLines a.header a.blocks⟩ := rfl

theorem siblings_unit (s : Spec) (sel : Selection) (a : Assembly) :
    (a.unit s sel).siblings = a.siblings.map (Declaration.ofSibling s.name) := by
  have hall : ∀ d ∈ a.siblings.map (Declaration.ofSibling s.name), d.role = .sibling := by
    intro d hd
    obtain ⟨t, -, rfl⟩ := List.mem_map.1 hd
    rfl
  rw [siblings, Assembly.unit, Assembly.declarations, List.filter_cons_of_neg (by simp),
    List.filter_eq_self]
  simpa using hall

end SourceUnit

theorem Spec.compose_eq_ok {s : Spec} {sel : Selection} {c : Catalog} {u : SourceUnit} :
    s.compose sel c = .ok u ↔ ∃ a : Assembly, a.Steps s sel c ∧ u = a.unit s sel := by
  constructor
  · intro h
    obtain ⟨parts, hparts, h⟩ := bind_eq_ok.1 h
    obtain ⟨base, hbase, h⟩ := bind_eq_ok.1 h
    obtain ⟨headerText, hht, h⟩ := bind_eq_ok.1 h
    obtain ⟨bodyText, hbt, h⟩ := bind_eq_ok.1 h
    obtain ⟨hooks, hhooks, h⟩ := bind_eq_ok.1 h
    obtain ⟨header, hheader, h⟩ := bind_eq_ok.1 h
    obtain ⟨body, hbody, h⟩ := bind_eq_ok.1 h
    obtain ⟨members, hmembers, h⟩ := bind_eq_ok.1 h
    obtain ⟨attributeLines, hattr, h⟩ := bind_eq_ok.1 h
    obtain ⟨siblings, hsib, h⟩ := bind_eq_ok.1 h
    cases h
    exact ⟨⟨parts, base, headerText, bodyText, hooks, header, body, members, attributeLines,
      siblings⟩, ⟨hparts, hbase, hht, hbt, hhooks, hheader, hbody, hmembers, hattr, hsib⟩, rfl⟩
  · rintro ⟨a, h, rfl⟩
    exact bind_eq_ok.2 ⟨_, h.parts, bind_eq_ok.2 ⟨_, h.base, bind_eq_ok.2 ⟨_, h.headerText,
      bind_eq_ok.2 ⟨_, h.bodyText, bind_eq_ok.2 ⟨_, h.hooks, bind_eq_ok.2 ⟨_, h.header,
      bind_eq_ok.2 ⟨_, h.body, bind_eq_ok.2 ⟨_, h.members, bind_eq_ok.2 ⟨_, h.attributeLines,
      bind_eq_ok.2 ⟨_, h.siblings, rfl⟩⟩⟩⟩⟩⟩⟩⟩⟩⟩

/-- The content that a composed unit stores is what its own declarations assemble to. -/
theorem Spec.source_of_compose {s : Spec} {sel : Selection} {c : Catalog} {u : SourceUnit}
    (h : s.compose sel c = .ok u) : u.source = SourceUnit.assemble s.scope u.declarations := by
  obtain ⟨a, -, rfl⟩ := compose_eq_ok.1 h
  rfl

end TypedId
