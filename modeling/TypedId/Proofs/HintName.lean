import TypedId.Proofs.Generation
import TypedId.Proofs.Writing

/-!
# Names of files

The name of a unit's file is a row of segments with dots between them: those of the namespace, the
type's name, and two that are fixed. Segments hold no dots, so the name tells namespace and type
apart; and it is a plain name, so a write stays in the sink's directory.
-/

namespace TypedId

namespace Text

theorem isIdentifier_of_mem_splitOn {s : Text} (h : isDotted s = true) {p : Text}
    (hp : p ∈ s.splitOn '.') : isIdentifier p = true :=
  List.all_eq_true.1 h p hp

theorem intercalate_append (sep : Text) {a b : List Text} (ha : a ≠ []) (hb : b ≠ []) :
    sep.intercalate (a ++ b) = sep.intercalate a ++ sep ++ sep.intercalate b := by
  induction a with
  | nil => exact absurd rfl ha
  | cons t a ih =>
    cases a with
    | nil => rw [List.singleton_append, List.intercalate_cons_of_ne_nil hb,
        List.intercalate_singleton]
    | cons t' a =>
      rw [List.cons_append, List.cons_append, List.intercalate_cons_cons, ← List.cons_append,
        ih (List.cons_ne_nil t' a), List.intercalate_cons_cons]
      simp only [List.append_assoc]

end Text

open Text

/-- The name of a file that holds a generated source. -/
structure SourceName (s : Text) : Prop where
  chars : ∀ c ∈ s, isIdentifierPart c = true ∨ c = '.'
  segments : ∀ p ∈ s.splitOn '.', p ≠ []
  first : s.head? ≠ some '.'
  ending : ".g.cs".toList <:+ s

namespace Spec

/-- The parts of a namespace. -/
def scopeSegments : Option Text → List Text
  | some scope => scope.splitOn '.'
  | none => []

/-- The parts of a hint name between its dots. -/
def segments (s : Spec) : List Text := scopeSegments s.scope ++ [s.name, ['g'], ['c', 's']]

theorem hintName_eq (s : Spec) : s.hintName = ['.'].intercalate s.segments := by
  have hending : ".g.cs".toList = ['.', 'g', '.', 'c', 's'] := String.toList_ofList
  obtain ⟨name, scope, backing, converters, implementations⟩ := s
  cases scope with
  | none =>
    change name ++ ".g.cs".toList = ['.'].intercalate [name, ['g'], ['c', 's']]
    rw [hending]
    rfl
  | some scope =>
    change scope ++ ['.'] ++ name ++ ".g.cs".toList =
      ['.'].intercalate (scope.splitOn '.' ++ [name, ['g'], ['c', 's']])
    rw [intercalate_append _ (List.splitOn_ne_nil '.' scope) (List.cons_ne_nil _ _),
      List.intercalate_splitOn, hending, List.append_assoc (scope ++ ['.'])]
    rfl

/-- A spec with a valid name and namespace. -/
structure WellNamed (s : Spec) : Prop where
  name : isIdentifier s.name = true
  scope : ∀ scope ∈ s.scope, isDotted scope = true

namespace WellNamed

variable {s t : Spec}

theorem isIdentifier_of_mem_segments (h : s.WellNamed) {p : Text} (hp : p ∈ s.segments) :
    isIdentifier p = true := by
  rcases List.mem_append.1 hp with hp | hp
  · cases hscope : s.scope with
    | none =>
      rw [hscope] at hp
      cases hp
    | some scope =>
      rw [hscope] at hp
      exact isIdentifier_of_mem_splitOn (h.scope scope hscope) hp
  · simp only [List.mem_cons, List.not_mem_nil, or_false] at hp
    rcases hp with rfl | rfl | rfl
    · exact h.name
    · decide
    · decide

theorem splitOn_hintName (h : s.WellNamed) : s.hintName.splitOn '.' = s.segments := by
  rw [hintName_eq]
  refine List.splitOn_intercalate '.' (fun p hp => ?_) (by simp [segments])
  exact not_mem_of_isIdentifier (h.isIdentifier_of_mem_segments hp) (by decide)

/-- The segments before the last three are the namespace, the one after them is the name. -/
theorem hintName_inj (hs : s.WellNamed) (ht : t.WellNamed) :
    s.hintName = t.hintName ↔ s.scope = t.scope ∧ s.name = t.name := by
  constructor
  · intro h
    have hsegments : s.segments = t.segments := by
      rw [← hs.splitOn_hintName, ← ht.splitOn_hintName, h]
    -- three segments follow the namespace on both sides
    obtain ⟨hscope, hrest⟩ := List.append_inj' hsegments rfl
    refine ⟨?_, (List.cons.inj hrest).1⟩
    cases hsc : s.scope with
    | none =>
      rw [hsc] at hscope
      cases htc : t.scope with
      | none => rfl
      | some scope =>
        rw [htc] at hscope
        exact absurd hscope.symm (List.splitOn_ne_nil '.' scope)
    | some scope =>
      rw [hsc] at hscope
      cases htc : t.scope with
      | none =>
        rw [htc] at hscope
        exact absurd hscope (List.splitOn_ne_nil '.' scope)
      | some scope' =>
        rw [htc] at hscope
        have hjoin := congrArg (['.'].intercalate ·) hscope
        simp only [scopeSegments, List.intercalate_splitOn] at hjoin
        rw [hjoin]
  · rintro ⟨hscope, hname⟩
    rw [hintName, hintName, hscope, hname]

theorem mem_hintName (h : s.WellNamed) {c : Char} (hc : c ∈ s.hintName) :
    isIdentifierPart c = true ∨ c = '.' := by
  by_cases hdot : c = '.'
  · exact Or.inr hdot
  · -- any other character stands within a segment
    left
    have hsep : ∀ x ∈ ['.'], x ∉ [c] := by simpa using Ne.symm hdot
    rw [hintName_eq, ← List.singleton_infix_iff,
      infix_intercalate_iff (List.cons_ne_nil _ _) hsep (List.cons_ne_nil c [])] at hc
    obtain ⟨p, hp, hcp⟩ := hc
    exact isIdentifierPart_of_mem (h.isIdentifier_of_mem_segments hp) c
      ((List.singleton_infix_iff c p).1 hcp)

theorem head?_hintName (h : s.WellNamed) : s.hintName.head? ≠ some '.' := by
  obtain ⟨p, rest, hsegments⟩ := List.exists_cons_of_ne_nil (l := s.segments) (by simp [segments])
  have hp := h.isIdentifier_of_mem_segments (hsegments ▸ List.mem_cons_self)
  obtain ⟨c, p, rfl⟩ := List.exists_cons_of_ne_nil (ne_nil_of_isIdentifier hp)
  have hc : c ≠ '.' := by
    rintro rfl
    exact not_mem_of_isIdentifier hp (by decide) List.mem_cons_self
  rw [hintName_eq, hsegments]
  cases rest <;> simpa [List.intercalate_cons_cons] using hc

theorem sourceName (h : s.WellNamed) : SourceName s.hintName where
  chars _ hc := h.mem_hintName hc
  segments p hp := by
    rw [h.splitOn_hintName] at hp
    exact ne_nil_of_isIdentifier (h.isIdentifier_of_mem_segments hp)
  first := h.head?_hintName
  ending := by
    rw [hintName]
    split <;> exact List.suffix_append _ _

end WellNamed
end Spec

theorem SourceName.plainName {s : Text} (h : SourceName s) : PlainName s where
  ne_nil := by
    rintro rfl
    exact absurd (List.suffix_nil.1 h.ending) (by decide)
  ne_dot := by
    rintro rfl
    exact h.first rfl
  ne_dots := by
    rintro rfl
    exact h.first rfl
  slash hm := by
    rcases h.chars '/' hm with hpart | hdot
    · exact absurd hpart (by decide)
    · exact absurd hdot (by decide)

namespace Request

theorem wellNamed_of_resolve {r : Request} {d : Defaults} {s : Spec} (h : r.resolve d = .ok s) :
    s.WellNamed ∧ s.scope = r.scope ∧ s.name = r.name := by
  obtain ⟨hr, rfl⟩ := resolve_eq_ok.1 h
  exact ⟨⟨hr.name, hr.scope⟩, rfl, rfl⟩

theorem resolve_of_generate {r : Request} {d : Defaults} {c : Catalog} {u : SourceUnit}
    (h : r.generate d c = .ok u) : ∃ s, r.resolve d = .ok s ∧ u.hintName = s.hintName := by
  obtain ⟨sel, a, hr, -, -, rfl⟩ := generate_eq_ok.1 h
  exact ⟨_, resolve_eq_ok.2 ⟨hr, rfl⟩, rfl⟩

theorem hintName_inj {r r' : Request} {d d' : Defaults} {s s' : Spec} (h : r.resolve d = .ok s)
    (h' : r'.resolve d' = .ok s') :
    s.hintName = s'.hintName ↔ r.scope = r'.scope ∧ r.name = r'.name := by
  obtain ⟨hs, hscope, hname⟩ := wellNamed_of_resolve h
  obtain ⟨hs', hscope', hname'⟩ := wellNamed_of_resolve h'
  rw [hs.hintName_inj hs', hscope, hname, hscope', hname']

theorem generate_of_getElem? {d : Defaults} {c : Catalog} {requests : List Request} {i : Nat}
    {r : Request} {u : SourceUnit} (hr : requests[i]? = some r)
    (hu : (generateAll d c requests)[i]? = some (.ok u)) : r.generate d c = .ok u := by
  rw [generateAll, List.getElem?_map, hr] at hu
  exact Option.some.inj hu

/-- A hint name tells namespace and name apart, also within a batch. It is a file name of one step,
so a write of the unit changes nothing but that file in the sink's own directory. -/
theorem hintName_resolve {r r' : Request} {d d' : Defaults} {s s' : Spec}
    (h : r.resolve d = .ok s) (h' : r'.resolve d' = .ok s') :
    (s.hintName = s'.hintName ↔ r.scope = r'.scope ∧ r.name = r'.name) ∧
    (∀ (c : Catalog) (requests : List Request) (i j : Nat) (u u' : SourceUnit),
      requests[i]? = some r → requests[j]? = some r' →
      (generateAll d c requests)[i]? = some (.ok u) →
      (generateAll d c requests)[j]? = some (.ok u') →
      (u.hintName = u'.hintName ↔ r.scope = r'.scope ∧ r.name = r'.name)) ∧
    SourceName s.hintName ∧ Way.ofText s.hintName = ⟨false, [.name s.hintName], false⟩ ∧
    ∀ (c : Catalog) (u : SourceUnit), r.generate d c = .ok u →
      ∀ (k : Sink) (t t' : FileTree) (o : WriteOutcome), k.write t u = .ok (t', o) →
        ∃ base, k.directory = some base ∧
          ∀ q, q ≠ base ++ [s.hintName] → t'.lookup q = t.lookup q := by
  have hsource := (wellNamed_of_resolve h).1.sourceName
  refine ⟨hintName_inj h h', ?_, hsource, hsource.plainName.ofText_eq, ?_⟩
  · intro c requests i j u u' hr hr' hu hu'
    obtain ⟨s, hs, hhint⟩ := resolve_of_generate (generate_of_getElem? hr hu)
    obtain ⟨s', hs', hhint'⟩ := resolve_of_generate (generate_of_getElem? hr' hu')
    rw [hhint, hhint', hintName_inj hs hs']
  · intro c u hu k t t' o hwrite
    obtain ⟨s', hs', hhint⟩ := resolve_of_generate hu
    obtain rfl : s = s' := Except.ok.inj (h.symm.trans hs')
    have hplain := hsource.plainName
    rw [← hhint] at hplain ⊢
    obtain ⟨base, hbase, hwrote⟩ := Sink.write_eq_ok hplain hwrite
    exact ⟨base, hbase, fun q hq => hwrote.lookup_eq (by simp) hq⟩

/-- Two types whose hint names differ by one segment. -/
theorem hintName_orders :
    (∃ s, ({ name := "Orders".toList } : Request).resolve .builtIn = .ok s ∧
      s.hintName = "Orders.g.cs".toList ∧ SourceName s.hintName) ∧
    ∃ s s', ({ name := "Orders".toList } : Request).resolve .builtIn = .ok s ∧
      ({ name := "g".toList, scope := some "Orders".toList } : Request).resolve .builtIn = .ok s' ∧
      (s.hintName = s'.hintName ↔
        (none : Option Text) = some "Orders".toList ∧ "Orders".toList = "g".toList) := by
  have hs : ({ name := "Orders".toList } : Request).resolve .builtIn =
      .ok (filled { name := "Orders".toList } .builtIn) := by decide
  have hs' : ({ name := "g".toList, scope := some "Orders".toList } : Request).resolve .builtIn =
      .ok (filled { name := "g".toList, scope := some "Orders".toList } .builtIn) := by
    decide
  have hboth := hintName_resolve hs hs'
  exact ⟨⟨_, hs, by decide, hboth.2.2.1⟩, _, _, hs, hs', hboth.1⟩

end Request

end TypedId
