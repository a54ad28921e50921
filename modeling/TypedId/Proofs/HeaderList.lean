import TypedId.Proofs.Growth

/-!
# The list of contracts

The struct header lists each contract that a kept implementation declares, once, where it first
appears. What selection drops adds none, so the contract that two implementations share stands there
only with the one that brings its members.
-/

namespace TypedId

open Placeholder

/-! ### First appearances -/

/-- The members of a list, each once, in the order in which they first appear. -/
structure FirstSeen {α : Type} [BEq α] (all listed : List α) : Prop where
  nodup : listed.Nodup
  mem : ∀ x, x ∈ listed ↔ x ∈ all
  order : listed.Pairwise fun x y => all.idxOf x < all.idxOf y

namespace FirstSeen

variable {α : Type} [BEq α] [LawfulBEq α] {all listed : List α} {x : α}

theorem order_append (h : FirstSeen all listed) (more : List α) :
    listed.Pairwise fun x y => (all ++ more).idxOf x < (all ++ more).idxOf y := by
  refine h.order.imp_of_mem fun {y z} hy hz hlt => ?_
  rwa [List.idxOf_append_of_mem ((h.mem y).1 hy), List.idxOf_append_of_mem ((h.mem z).1 hz)]

theorem append_old (h : FirstSeen all listed) (hx : x ∈ all) : FirstSeen (all ++ [x]) listed where
  nodup := h.nodup
  mem y := by
    rw [h.mem, List.mem_append, List.mem_singleton]
    constructor
    · exact Or.inl
    · intro hy
      rcases hy with hy | rfl
      · exact hy
      · exact hx
  order := h.order_append [x]

theorem append_new (h : FirstSeen all listed) (hx : x ∉ all) :
    FirstSeen (all ++ [x]) (listed ++ [x]) where
  nodup := by
    have hfresh : x ∉ listed := fun hmem => hx ((h.mem x).1 hmem)
    exact List.nodup_append_comm.1 (List.nodup_cons.2 ⟨hfresh, h.nodup⟩)
  mem y := by simp only [List.mem_append, h.mem]
  order := by
    refine List.pairwise_append.2 ⟨h.order_append [x], List.pairwise_singleton _ _, ?_⟩
    intro y hy z hz
    have hmem := (h.mem y).1 hy
    have hlt := List.idxOf_lt_length_of_mem hmem
    rw [List.mem_singleton.1 hz, List.idxOf_append_of_mem hmem, List.idxOf_append_of_notMem hx]
    omega

end FirstSeen

theorem firstSeen_eraseDups {α : Type} [BEq α] [LawfulBEq α] (all : List α) :
    FirstSeen all all.eraseDups := by
  induction all using List.reverseRecOn with
  | nil => exact ⟨List.nodup_nil, fun _ => Iff.rfl, List.Pairwise.nil⟩
  | append_singleton all x ih =>
    rw [List.eraseDups_append]
    by_cases hx : x ∈ all
    · have hnone : [x].removeAll all = [] := by simp [List.removeAll, hx]
      rw [hnone, List.eraseDups_nil, List.append_nil]
      exact ih.append_old hx
    · have hone : [x].removeAll all = [x] := by simp [List.removeAll, hx]
      rw [hone]
      exact ih.append_new hx

/-! ### The header -/

/-- The contract that equality brings and that comparison operators declare as well. -/
def Implementation.equalityOperators : String :=
  "System.Numerics.IEqualityOperators<\x7b\x7bTYPE\x7d\x7d, \x7b\x7bTYPE\x7d\x7d, bool>"

theorem Implementation.equalityOperators_mem {k : Implementation} :
    equalityOperators ∈ k.contracts ↔ k = .equatable ∨ k.prerequisite = some .equatable := by
  cases k <;> decide

/-- The struct opens with the base header, its slot filled with the given contracts. -/
def SourceUnit.HeaderLists (u : SourceUnit) (s : Spec) (c : Catalog) (listed : List String) : Prop :=
  ∃ base text lines members, c.lookup (.base s.backing) = some base ∧ base.header = some text ∧
    interfacesToken <:+: text ∧
    u.primary? = some ⟨.primary, s.name, structText lines
      (Text.substitute typeToken s.name (Text.substitute interfacesToken
        (Interfaces.heading (listed.map String.toList)) text)) members⟩

namespace Assembly.Steps

variable {s : Spec} {sel : Selection} {c : Catalog} {a : Assembly}

theorem headerLists (h : a.Steps s sel c) :
    (a.unit s sel).HeaderLists s c (Interfaces.contracts sel.implementations) := by
  obtain ⟨hhead, hkey⟩ := Part.leadingBase_eq_ok.1 h.base
  obtain ⟨-, hlookup⟩ := Part.gather_eq_ok.1 h.parts
  have hbase := hlookup _ (List.mem_of_head? hhead)
  obtain ⟨htext, hslot⟩ := Part.slotted_eq_ok.1 h.headerText
  have hheader := (render_eq_ok.1 h.header).1
  rw [Interfaces.clause_eq_heading] at hheader
  rw [hkey] at hbase
  refine ⟨a.base.fragment, a.headerText, a.attributeLines, a.blocks, hbase, htext, hslot, ?_⟩
  rw [SourceUnit.primary?_unit, hheader]

end Assembly.Steps

/-! ### What is kept -/

/-- The implementations that the spec asks for and no diagnostic reports, in canonical order. -/
structure SourceUnit.Keeps (u : SourceUnit) (s : Spec) (kept : List Implementation) : Prop where
  ascending : kept.Pairwise fun j k => j.position < k.position
  mem : ∀ k, k ∈ kept ↔
    k ∈ s.implementations ∧ ∀ d ∈ u.diagnostics, d.capability ≠ .implementation k

namespace Spec

theorem mem_implementations_of_select {s : Spec} {c : Catalog} {sel : Selection}
    (h : s.select c = .ok sel) (k : Implementation) : k ∈ sel.implementations ↔
      k ∈ s.implementations ∧ ∀ d ∈ sel.diagnostics, d.capability ≠ .implementation k := by
  obtain ⟨-, rfl⟩ := select_eq_ok.1 h
  rw [mem_implementations_chosen, mem_requested]
  refine and_congr_right fun hasked => ?_
  have hdropped : Capability.implementation k ∈
      (s.chosen c s.requested).diagnostics.map (·.capability) ↔
        s.keeps c (.implementation k) = false := by
    rw [dropped_chosen, List.mem_filter, mem_requested, Bool.not_eq_true', and_iff_right hasked]
  rw [← Bool.not_eq_false, ← hdropped, List.mem_map]
  simp

theorem grounded_of_select {s : Spec} {c : Catalog} {sel : Selection} (h : s.select c = .ok sel) :
    Interfaces.Grounded sel.implementations := by
  obtain ⟨-, rfl⟩ := select_eq_ok.1 h
  exact grounded_chosen s c

end Spec

/-- Equality operators are listed for equality only: comparison operators come with it. -/
theorem Interfaces.Grounded.equalityOperators_mem {kinds : List Implementation}
    (h : Grounded kinds) :
    Implementation.equalityOperators ∈ contracts kinds ↔ .equatable ∈ kinds := by
  rw [contracts, List.mem_eraseDups, List.mem_flatMap]
  constructor
  · intro hlisted
    obtain ⟨k, hk, hdeclared⟩ := hlisted
    rcases Implementation.equalityOperators_mem.1 hdeclared with rfl | hneeds
    · exact hk
    · exact h.needs k hk _ hneeds
  · intro hk
    exact ⟨_, hk, Implementation.equalityOperators_mem.2 (Or.inl rfl)⟩

/-- Whatever selection a struct is composed of, its header lists the contracts of the selected
implementations where they first appear; and for a request these are the implementations that are
asked for and not reported as dropped, in canonical order. -/
theorem header_lists :
    (∀ (s : Spec) (sel : Selection) (c : Catalog) (u : SourceUnit), s.compose sel c = .ok u →
      ∃ listed, u.HeaderLists s c listed ∧
        FirstSeen (sel.implementations.flatMap Implementation.contracts) listed) ∧
    ∀ (r : Request) (d : Defaults) (c : Catalog) (u : SourceUnit), r.generate d c = .ok u →
      ∃ kept listed, u.Keeps (r.filled d) kept ∧ u.HeaderLists (r.filled d) c listed ∧
        FirstSeen (kept.flatMap Implementation.contracts) listed ∧
        (∀ t, t ∈ listed ↔ ∃ k ∈ kept, t ∈ k.contracts) ∧
        (Implementation.equalityOperators ∈ listed ↔ .equatable ∈ kept) := by
  constructor
  · intro s sel c u h
    obtain ⟨a, ha, rfl⟩ := Spec.compose_eq_ok.1 h
    exact ⟨_, ha.headerLists, firstSeen_eraseDups _⟩
  · intro r d c u h
    obtain ⟨sel, a, hselect, ha, rfl⟩ := Request.exists_builds h
    have hground := Spec.grounded_of_select hselect
    have hkept := Spec.mem_implementations_of_select hselect
    have hseen := firstSeen_eraseDups (sel.implementations.flatMap Implementation.contracts)
    refine ⟨sel.implementations, _, ⟨hground.ascending, hkept⟩, ha.headerLists, hseen, fun t => ?_,
      hground.equalityOperators_mem⟩
    rw [Interfaces.contracts, hseen.mem, List.mem_flatMap]

namespace Request

/-- Without equality the comparison operators are dropped, and the contract of equality operators
with them; a selection made by hand can still list it. -/
theorem header_lists_growing :
    (∃ u listed, (growing [.comparisonOperators]).generate .builtIn growingCatalog = .ok u ∧
      u.HeaderLists ((growing [.comparisonOperators]).filled .builtIn) growingCatalog listed ∧
      Implementation.equalityOperators ∉ listed) ∧
    (∃ u listed,
      (growing [.equatable, .comparisonOperators]).generate .builtIn growingCatalog = .ok u ∧
      u.HeaderLists ((growing [.equatable, .comparisonOperators]).filled .builtIn) growingCatalog
        listed ∧ Implementation.equalityOperators ∈ listed) ∧
    ∃ u listed, ((growing []).filled .builtIn).compose
        { keys := [.base .int, .implementation .int .comparisonOperators] } growingCatalog = .ok u ∧
      u.HeaderLists ((growing []).filled .builtIn) growingCatalog listed ∧
      Implementation.equalityOperators ∈ listed := by
  refine ⟨?_, ?_, ?_⟩
  · have hrun : ((growing [.comparisonOperators]).generate .builtIn growingCatalog).map
        (·.diagnostics) = .ok [⟨"A".toList, .implementation .comparisonOperators,
          .missingPrerequisite .equatable⟩] := by decide +kernel
    obtain ⟨u, hu, -⟩ := map_eq_ok.1 hrun
    obtain ⟨kept, listed, hkept, hheader, -, -, hequality⟩ := header_lists.2 _ _ _ _ hu
    refine ⟨u, listed, hu, hheader, fun hlisted => ?_⟩
    have hasked := ((hkept.mem .equatable).1 (hequality.1 hlisted)).1
    simp only [growing, filled, Setting.getD_explicit, KindSet.mem_ofList] at hasked
    exact absurd hasked (by decide)
  · have hrun : ((growing [.equatable, .comparisonOperators]).generate .builtIn growingCatalog).map
        (·.diagnostics) = .ok [] := by decide +kernel
    obtain ⟨u, hu, hnone⟩ := map_eq_ok.1 hrun
    obtain ⟨kept, listed, hkept, hheader, -, -, hequality⟩ := header_lists.2 _ _ _ _ hu
    have hasked : Implementation.equatable ∈
        ((growing [.equatable, .comparisonOperators]).filled .builtIn).implementations := by
      simp [growing, filled]
    have hsilent : ∀ d ∈ u.diagnostics, d.capability ≠ .implementation .equatable := by
      simp [hnone]
    exact ⟨u, listed, hu, hheader, hequality.2 ((hkept.mem _).2 ⟨hasked, hsilent⟩)⟩
  · have hrun : (((growing []).filled .builtIn).compose
        { keys := [.base .int, .implementation .int .comparisonOperators] } growingCatalog).map
        (·.diagnostics) = .ok [] := by decide +kernel
    obtain ⟨u, hu, -⟩ := map_eq_ok.1 hrun
    obtain ⟨listed, hheader, hseen⟩ := header_lists.1 _ _ _ _ hu
    exact ⟨u, listed, hu, hheader, (hseen.mem _).2 (by decide)⟩

end Request
end TypedId
