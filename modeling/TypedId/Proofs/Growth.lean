import Mathlib.Data.List.Basic
import TypedId.Proofs.Contracts
import TypedId.Proofs.Generation
import TypedId.Proofs.Widening

/-!
# The source of a wider request

A request that asks for more gets all the text that it got before, in the same order: the adapters
after the struct, the contracts in the header, and what the chosen fragments add to the struct.
-/

namespace TypedId

open Placeholder

namespace Part

theorem renderAll_sublist {name : Text} {pick : Fragment → Option Text} {parts parts' : List Part}
    {texts texts' : List Text} (hsub : parts.Sublist parts')
    (h : renderAll name pick parts = .ok texts) (h' : renderAll name pick parts' = .ok texts') :
    texts.Sublist texts' := by
  obtain ⟨rfl, -⟩ := renderAll_eq_ok.1 h
  obtain ⟨rfl, -⟩ := renderAll_eq_ok.1 h'
  exact (hsub.filterMap _).map _

end Part

/-! ### Where the sections stand in the struct -/

theorem infix_intercalate_of_mem {sep t : Text} {texts : List Text} (h : t ∈ texts) :
    t <:+: sep.intercalate texts := by
  induction texts with
  | nil => cases h
  | cons a texts ih =>
    cases texts with
    | nil =>
      obtain rfl := List.mem_singleton.1 h
      rw [List.intercalate_singleton]
    | cons b texts =>
      rw [List.intercalate_cons_cons, List.append_assoc]
      rcases List.mem_cons.1 h with rfl | h
      · exact (List.prefix_append _ _).isInfix
      · exact List.infix_append_of_infix_right (List.infix_append_of_infix_right (ih h))

theorem infix_structText {lines members : List Text} {header t : Text} (h : t ∈ lines ++ members) :
    t <:+: structText lines header members := by
  rw [structText]
  rcases List.mem_append.1 h with h | h
  · have hline : t <:+: lines.flatMap (· ++ ['\n']) :=
      (List.prefix_append t ['\n']).isInfix.trans
        (List.infix_of_mem_flatten (List.mem_map_of_mem h))
    simp only [List.append_assoc]
    exact List.infix_append_of_infix_left hline
  · refine List.infix_append_of_infix_left (List.infix_append_of_infix_right ?_)
    exact infix_intercalate_of_mem h

theorem Assembly.infix_struct {a : Assembly} {t : Text} (h : t ∈ a.attributeLines ++ a.members) :
    t <:+: structText a.attributeLines a.header a.blocks := by
  have hblocks : (a.attributeLines ++ a.members).Sublist (a.attributeLines ++ a.blocks) :=
    (List.Sublist.refl _).append (List.sublist_cons_self a.body a.members)
  exact infix_structText (hblocks.subset h)

/-- Dropping repeats keeps the order here, because selection keeps no kind without what it needs. -/
theorem Spec.Within.listed_sublist {s t : Spec} {sel sel' : Selection} {c : Catalog}
    (h : s.Within t) (hs : s.select c = .ok sel) (ht : t.select c = .ok sel') :
    (Interfaces.listed s.name sel.implementations).Sublist
      (Interfaces.listed t.name sel'.implementations) := by
  have hkinds : sel.implementations.Sublist sel'.implementations :=
    (h.keys_sublist_of_select hs ht).filterMap _
  obtain ⟨-, rfl⟩ := select_eq_ok.1 hs
  obtain ⟨-, rfl⟩ := select_eq_ok.1 ht
  rw [Interfaces.listed, Interfaces.listed, h.name]
  exact ((grounded_chosen s c).contracts_sublist (grounded_chosen t c) hkinds).map _

namespace Assembly.Steps

variable {s t : Spec} {sel sel' : Selection} {c : Catalog} {a b : Assembly}

theorem heading_infix_header (h : a.Steps s sel c) :
    Interfaces.heading (Interfaces.listed s.name sel.implementations) <:+: a.header := by
  have hslot := (Part.slotted_eq_ok.1 h.headerText).2
  have hclause := Text.infix_substitute (by decide) (Interfaces.clause sel.implementations) hslot
  rw [(render_eq_ok.1 h.header).1]
  exact Interfaces.heading_listed_infix s.name hclause

theorem parts_sublist (hsub : sel.keys.Sublist sel'.keys) (ha : a.Steps s sel c)
    (hb : b.Steps t sel' c) : a.parts.Sublist b.parts := by
  rw [Catalog.parts_of_gather ha.parts, Catalog.parts_of_gather hb.parts]
  exact hsub.filterMap _

variable (hname : s.name = t.name) (hsub : sel.keys.Sublist sel'.keys) (ha : a.Steps s sel c)
  (hb : b.Steps t sel' c)

include hname hsub ha hb

theorem attributeLines_sublist : a.attributeLines.Sublist b.attributeLines := by
  have hlines := ha.attributeLines
  rw [hname] at hlines
  exact Part.renderAll_sublist (parts_sublist hsub ha hb).tail hlines hb.attributeLines

theorem members_sublist : a.members.Sublist b.members := by
  have hparts := parts_sublist hsub ha hb
  have hmembers := ha.members
  rw [hname] at hmembers
  exact Part.renderAll_sublist ((hparts.filter _).append (hparts.filter _)) hmembers hb.members

theorem siblings_sublist : (a.unit s sel).siblings.Sublist (b.unit t sel').siblings := by
  have hsiblings := ha.siblings
  rw [hname] at hsiblings
  rw [SourceUnit.siblings_unit, SourceUnit.siblings_unit, hname]
  exact (Part.renderAll_sublist (parts_sublist hsub ha hb).tail hsiblings hb.siblings).map _

end Assembly.Steps

namespace Request

/-- The selection and the steps of composing from which a request gets its unit. -/
structure Builds (r : Request) (d : Defaults) (c : Catalog) (sel : Selection) (a : Assembly)
    (u : SourceUnit) : Prop where
  select : (r.filled d).select c = .ok sel
  steps : a.Steps (r.filled d) sel c
  unit : u = a.unit (r.filled d) sel

theorem exists_builds {r : Request} {d : Defaults} {c : Catalog} {u : SourceUnit}
    (h : r.generate d c = .ok u) : ∃ sel a, r.Builds d c sel a u := by
  obtain ⟨sel, a, -, hsel, ha, hu⟩ := generate_eq_ok.1 h
  exact ⟨sel, a, hsel, ha, hu⟩

/-- What a request gets, a request that asks for more gets as well: the same adapters, the same
contracts in the header, and the same attributes and members in the struct, in the same order. -/
theorem generate_within {r r' : Request} {d : Defaults} {c : Catalog} {u u' : SourceUnit}
    (h : (r.filled d).Within (r'.filled d)) (hu : r.generate d c = .ok u)
    (hu' : r'.generate d c = .ok u') :
    u.siblings.Sublist u'.siblings ∧
    ∃ sel a sel' a', r.Builds d c sel a u ∧ r'.Builds d c sel' a' u' ∧
      Interfaces.heading (Interfaces.listed r.name sel.implementations) <:+: a.header ∧
      Interfaces.heading (Interfaces.listed r'.name sel'.implementations) <:+: a'.header ∧
      (Interfaces.listed r.name sel.implementations).Sublist
        (Interfaces.listed r'.name sel'.implementations) ∧
      a.attributeLines.Sublist a'.attributeLines ∧ a.members.Sublist a'.members ∧
      ∃ p p', u.primary? = some p ∧ u'.primary? = some p' ∧
        ∀ t ∈ a.attributeLines ++ a.members, t <:+: p.text ∧ t <:+: p'.text := by
  obtain ⟨sel, a, hbuild⟩ := exists_builds hu
  obtain ⟨sel', a', hbuild'⟩ := exists_builds hu'
  have hkeys := h.keys_sublist_of_select hbuild.select hbuild'.select
  have hlisted := h.listed_sublist hbuild.select hbuild'.select
  have hlines := Assembly.Steps.attributeLines_sublist h.name hkeys hbuild.steps hbuild'.steps
  have hmembers := Assembly.Steps.members_sublist h.name hkeys hbuild.steps hbuild'.steps
  have hsiblings := Assembly.Steps.siblings_sublist h.name hkeys hbuild.steps hbuild'.steps
  rw [← hbuild.unit, ← hbuild'.unit] at hsiblings
  have hprimary := SourceUnit.primary?_unit (r.filled d) sel a
  have hprimary' := SourceUnit.primary?_unit (r'.filled d) sel' a'
  rw [← hbuild.unit] at hprimary
  rw [← hbuild'.unit] at hprimary'
  refine ⟨hsiblings, sel, a, sel', a', hbuild, hbuild', hbuild.steps.heading_infix_header,
    hbuild'.steps.heading_infix_header, hlisted, hlines, hmembers, _, _, hprimary, hprimary', ?_⟩
  intro t ht
  have hgrown : t ∈ a'.attributeLines ++ a'.members := (hlines.append hmembers).subset ht
  exact ⟨Assembly.infix_struct ht, Assembly.infix_struct hgrown⟩

/-- A catalog for one backing with a converter, and comparison operators that need equality. -/
def growingCatalog : Catalog := Catalog.build [
  .put (.base .int) { header := "struct \x7b\x7bTYPE\x7d\x7d\x7b\x7bINTERFACES\x7d\x7d".toList
                      members := "\x7b\x7bVALIDATE\x7d\x7d".toList },
  .put (.converter .int .typeConverter) { attributeLine := "[Convert]".toList
                                          sibling := "class \x7b\x7bTYPE\x7d\x7dC".toList },
  .put (.implementation .int .equatable) { members := "Equals\n".toList },
  .put (.implementation .int .comparisonOperators) { members := "Less\n".toList }]

/-- A request for a converter and the given implementations. -/
def growing (kinds : List Implementation) : Request where
  name := "A".toList
  backing := .explicit .int
  converters := .explicit (.ofList [.typeConverter])
  implementations := .explicit (.ofList kinds)

theorem generate_growing :
    ((growing [.comparisonOperators]).filled .builtIn).Within
      ((growing [.equatable, .comparisonOperators]).filled .builtIn) ∧
    ∃ u u', (growing [.comparisonOperators]).generate .builtIn growingCatalog = .ok u ∧
      (growing [.equatable, .comparisonOperators]).generate .builtIn growingCatalog = .ok u' ∧
      u.siblings.Sublist u'.siblings := by
  have hwithin : ((growing [.comparisonOperators]).filled .builtIn).Within
      ((growing [.equatable, .comparisonOperators]).filled .builtIn) := by
    refine ⟨rfl, rfl, fun k hk => hk, fun k hk => ?_⟩
    simp only [filled, growing, Setting.getD_explicit, KindSet.mem_ofList] at hk ⊢
    exact List.mem_cons_of_mem _ hk
  have hgets : ∀ kinds ∈ [[.comparisonOperators], [.equatable, .comparisonOperators]],
      ∃ u, (growing kinds).generate .builtIn growingCatalog = .ok u := by
    intro kinds hkinds
    have hok : ((growing kinds).generate .builtIn growingCatalog).isOk = true := by
      revert kinds
      decide +kernel
    cases hrun : (growing kinds).generate .builtIn growingCatalog with
    | ok u => exact ⟨u, rfl⟩
    | error f =>
      rw [hrun] at hok
      cases hok
  obtain ⟨u, hu⟩ := hgets [.comparisonOperators] List.mem_cons_self
  obtain ⟨u', hu'⟩ := hgets [.equatable, .comparisonOperators] (by simp)
  exact ⟨hwithin, u, u', hu, hu', (generate_within hwithin hu hu').1⟩

end Request
end TypedId
