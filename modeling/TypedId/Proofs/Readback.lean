import TypedId.Proofs.DeclaredNames
import TypedId.Proofs.Legible

/-!
# Reading a generated file back

What the outline reads from the source of a built-in unit is what composing put there: the
contracts of the kept implementations, the classes of the kept converters, and the text of the
struct, cut at its attribute lines, its header and its braces.
-/

namespace TypedId

open Placeholder Text Outline

/-! ### Contracts and their stems -/

theorem eraseDups_map {α β : Type} [BEq α] [LawfulBEq α] [BEq β] [LawfulBEq β] {f : α → β}
    {l : List α}
    (h : ∀ a ∈ l, ∀ b ∈ l, f a = f b → a = b) : (l.map f).eraseDups = l.eraseDups.map f := by
  -- the rest is filtered before it goes on, so the induction is on the length
  induction hn : l.length using Nat.strongRecOn generalizing l with
  | _ n ih =>
    cases l with
    | nil => rfl
    | cons a l =>
      have hfilter : (l.map f).filter (fun b => !b == f a) = (l.filter fun b => !b == a).map f := by
        rw [List.filter_map]
        refine congrArg _ (List.filter_congr fun b hb => ?_)
        have hiff : f b = f a ↔ b = a :=
          ⟨h b (List.mem_cons_of_mem a hb) a List.mem_cons_self, congrArg f⟩
        rw [Function.comp_apply, Bool.eq_iff_iff, Bool.not_eq_true', Bool.not_eq_true',
          beq_eq_false_iff_ne, beq_eq_false_iff_ne, ne_eq, ne_eq, hiff]
      have hshort : (l.filter fun b => !b == a).length < n := by
        have hle := List.length_filter_le (fun b => !b == a) l
        rw [← hn, List.length_cons]
        omega
      have hinner : ∀ x ∈ l.filter (fun b => !b == a), ∀ y ∈ l.filter (fun b => !b == a),
          f x = f y → x = y := fun x hx y hy =>
        h x (List.mem_cons_of_mem a (List.mem_filter.1 hx).1) y
          (List.mem_cons_of_mem a (List.mem_filter.1 hy).1)
      rw [List.map_cons, List.eraseDups_cons, List.eraseDups_cons, hfilter,
        ih _ hshort hinner rfl, List.map_cons]

namespace Interfaces

/-- The contract's name without its type arguments. -/
def stem (contract : Text) : Text := contract.takeWhile (· ≠ '<')

/-- A stem that has no token keeps it out of the stem of what is named. -/
theorem stem_substitute {t : Text} (h : '\x7b' ∉ stem t) (n : Text) :
    stem (substitute typeToken n t) = stem t := by
  -- the stem is copied, and what follows it opens with a bracket, so no token starts there
  have hsplit : t = stem t ++ t.dropWhile (· ≠ '<') := (List.takeWhile_append_dropWhile).symm
  have hstem : ∀ c ∈ stem t, decide (c ≠ '<') = true := fun c hc =>
    List.all_eq_true.1 (List.all_takeWhile (p := (· ≠ '<'))) c hc
  conv_lhs => rw [hsplit, substitute_typeToken_append h]
  cases hrest : t.dropWhile (· ≠ '<') with
  | nil =>
    rw [substitute_nil, List.append_nil, stem, List.takeWhile_eq_self_iff]
    exact hstem
  | cons c rest =>
    have hc : c = '<' := by
      have hhead := List.head?_dropWhile_not (· ≠ '<') t
      rw [hrest] at hhead
      simpa using hhead
    subst hc
    rw [substitute_cons (typeToken_not_leading (by decide) rest), stem,
      List.takeWhile_append_of_pos hstem, List.takeWhile_cons_of_neg (by decide), List.append_nil]

/-- Contracts are told apart by their stems, which hold no token. -/
theorem stem_contracts : ∀ j k : Implementation, ∀ t ∈ j.contracts, '\x7b' ∉ stem t.toList ∧
    ∀ t' ∈ k.contracts, stem t.toList = stem t'.toList → t.toList = t'.toList := by
  intro j k
  cases j <;> cases k
  all_goals
    simp only [Implementation.contracts, List.forall_mem_cons]
    repeat rw [String.toList_ofList]
    decide

theorem listed_eq (n : Text) (kinds : List Implementation) : listed n kinds =
    (kinds.flatMap fun k =>
      k.contracts.map fun t => substitute typeToken n t.toList).eraseDups := by
  have hmap : (kinds.flatMap fun k => k.contracts.map fun t => substitute typeToken n t.toList) =
      (kinds.flatMap Implementation.contracts).map fun t => substitute typeToken n t.toList := by
    rw [List.map_flatMap]
  rw [hmap, eraseDups_map, listed, contracts]
  intro t ht t' ht' e
  obtain ⟨j, -, hj⟩ := List.mem_flatMap.1 ht
  obtain ⟨k, -, hk⟩ := List.mem_flatMap.1 ht'
  refine String.toList_inj.1 ((stem_contracts j k t hj).2 t' hk ?_)
  rw [← stem_substitute (stem_contracts j k t hj).1 n,
    ← stem_substitute (stem_contracts k j t' hk).1 n, e]

end Interfaces

/-! ### The declared names -/

theorem Outline.Adapter.declaredName?_lines {a : Adapter} (hne : a.name ≠ [])
    (h : a.name.all isIdentifierPart = true) :
    Declaration.declaredName? (ofLines a.lines) = some a.name := by
  have hopening : Adapter.opening = "class".toList ++ [' '] := by decide
  have hwords : words (ofLines a.lines) =
      "class".toList :: a.name :: words (a.heir ++ '\n' :: ofLines a.below) := by
    rw [Adapter.lines, ofLines_cons, Adapter.head, hopening, List.append_assoc, List.append_assoc,
      List.singleton_append, words_append_cons (by decide) (by decide) (by decide),
      List.append_assoc, List.cons_append,
      words_append_cons hne (any_isBlank_of_all h) (by decide)]
  have hkept : a.name.takeWhile isIdentifierPart = a.name :=
    List.takeWhile_eq_self_iff.2 (List.all_eq_true.1 h)
  have hnone : ∀ w ∈ [], w ∉ Declaration.headWords := List.forall_mem_nil _
  have hdeclared := Declaration.declaredName?_of_words (by rw [hwords, List.nil_append]) hnone
    (by decide) (by rwa [hkept])
  rw [hdeclared, hkept]

namespace Spec

theorem converters_ascending (s : Spec) (c : Catalog) :
    (s.chosen c s.requested).converters.Pairwise fun j k => j.position < k.position := by
  have hkeys := s.ascending_chosen c
  rw [keys_by_family, List.pairwise_cons, List.pairwise_append] at hkeys
  have hconverters := List.pairwise_map.1 hkeys.2.1
  refine hconverters.imp fun {j k} hjk => ?_
  change 64 * _ + j.position < 64 * _ + k.position at hjk
  omega

end Spec

namespace Request

/-- The declarations of a built-in unit as its page shows them. -/
theorem siblings_of_shows {s : Spec} (hname : isIdentifier s.name = true) {a : Assembly}
    (h : (Builtin.pageOf s).Shows a) :
    (a.unit s (Builtin.selection s)).siblings.map (·.name) =
      (Builtin.pageOf s).adapters.map (·.name) := by
  rw [SourceUnit.siblings_unit, h.siblings, List.map_map, List.map_map]
  refine List.map_congr_left fun x hx => ?_
  obtain ⟨k, -, rfl⟩ := List.mem_map.1 hx
  have hne : (Builtin.adapter s.backing s.name k).name ≠ [] :=
    List.append_ne_nil_of_left_ne_nil (ne_nil_of_isIdentifier hname) _
  have hpart := Builtin.isIdentifierPart_adapter hname s.backing k
  rw [Function.comp_apply, Function.comp_apply, Declaration.ofSibling,
    Adapter.declaredName?_lines hne hpart, Option.getD_some]

/-- The outline of a built-in source gives back the contracts, the classes and the struct. -/
theorem generate_readback {r : Request} (h : r.WellNamed) (d : Defaults) :
    ∃ s sel u, r.resolve d = .ok s ∧ s.select Builtin.catalog = .ok sel ∧
      r.generate d Builtin.catalog = .ok u ∧
      interfaces u.source = (sel.implementations.flatMap fun k =>
        k.contracts.map fun t => substitute typeToken r.name t.toList).eraseDups ∧
      topLevelClasses u.source = u.siblings.map (·.name) ∧
      u.siblings.map (·.name) = (sel.converters.filter (· ≠ .efCoreValueConverter)).map
        (fun k => r.name ++ k.classSuffix.toList) ∧
      sel.converters.Pairwise (fun j k => j.position < k.position) ∧
      ∃ p header body, u.primary? = some p ∧ structHeader? u.source = some header ∧
        structBody? u.source = some body ∧
        (structAttributes u.source).flatMap (· ++ ['\n']) ++ header ++ "\n\x7b".toList ++ body
          ++ "\x7d\n".toList = p.text := by
  obtain ⟨a, hgenerate, hshows, hsource⟩ := generate_pageOf h d
  have hlegible : (Builtin.pageOf (r.filled d)).Legible :=
    Builtin.legible_page h.name h.scope _ _ _
  have hheader := hlegible.structHeader?_source
  have hnames := siblings_of_shows (s := r.filled d) h.name hshows
  refine ⟨_, _, _, resolve_eq_ok.2 ⟨h, rfl⟩, Builtin.select_eq_ok _, hgenerate, ?_, ?_, ?_,
    Spec.converters_ascending _ _, _, (Builtin.pageOf (r.filled d)).header,
    (Builtin.pageOf (r.filled d)).body, SourceUnit.primary?_unit _ _ _, ?_, ?_, ?_⟩
  · rw [hsource, ← Interfaces.listed_eq]
    exact interfaces_eq hheader h.name (Interfaces.shape_of_mem_listed h.name _)
  · rw [hsource, hlegible.topLevelClasses_source, hnames]
  · rw [hnames, Builtin.pageOf, Builtin.page, List.map_map]
    rfl
  · rw [hsource, hheader]
  · rw [hsource, hlegible.structBody?_source]
  · rw [hsource, hlegible.structAttributes_source, hshows.structText_eq, ofLines]

/-- A request for two converters, and for operators with what they need. -/
def comparedRequest : Request where
  name := "OrderId".toList
  scope := some "Shop.Orders".toList
  backing := .explicit .int
  converters := .explicit (.ofList [.typeConverter, .efCoreValueConverter])
  implementations := .explicit (.ofList [.equatable, .comparisonOperators])

theorem readback_comparedRequest : comparedRequest.WellNamed ∧
    ∃ u, comparedRequest.generate .builtIn Builtin.catalog = .ok u ∧
      interfaces u.source = ["System.IEquatable<OrderId>".toList,
        "System.Numerics.IEqualityOperators<OrderId, OrderId, bool>".toList,
        "System.Numerics.IComparisonOperators<OrderId, OrderId, bool>".toList] ∧
      topLevelClasses u.source = ["OrderIdTypeConverter".toList] := by
  have h : comparedRequest.WellNamed := ⟨by decide, by decide⟩
  obtain ⟨s, sel, u, hs, hsel, hu, hinterfaces, hclasses, hnames, -⟩ :=
    generate_readback h .builtIn
  obtain ⟨-, rfl⟩ := resolve_eq_ok.1 hs
  obtain rfl : _ = sel := Except.ok.inj ((Builtin.select_eq_ok _).symm.trans hsel)
  have hkinds : (Builtin.selection (comparedRequest.filled .builtIn)).implementations =
        [.equatable, .comparisonOperators] ∧
      (Builtin.selection (comparedRequest.filled .builtIn)).converters =
        [.typeConverter, .efCoreValueConverter] := by decide
  refine ⟨h, u, hu, ?_, ?_⟩
  · rw [hinterfaces, hkinds.1]
    decide
  · rw [hclasses, hnames, hkinds.2]
    decide

end Request
end TypedId
