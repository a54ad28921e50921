import Mathlib.Data.List.Infix
import TypedId.Proofs.Verdict

/-!
# Which names catalogs can tell apart

A probe puts the name between two words and two pairs of braces. Names that are not interchangeable
get different verdicts from some probe, so interchangeability is exact; and thirteen names stand
for all.
-/

namespace TypedId

open Placeholder Text

namespace Placeholder

/-- A word between double braces. -/
def braced (w : Text) : Text := ['\x7b', '\x7b'] ++ w ++ ['\x7d', '\x7d']

/-- Words that lack a closing brace end at the first one. -/
theorem eq_of_append_brace {v w s t : Text} (hv : '\x7d' ∉ v) (hw : '\x7d' ∉ w)
    (h : v ++ '\x7d' :: s = w ++ '\x7d' :: t) : v = w := by
  have key : ∀ u r : Text, '\x7d' ∉ u → (u ++ '\x7d' :: r).takeWhile (· ≠ '\x7d') = u := by
    intro u r hu
    have hall : ∀ c ∈ u, decide (c ≠ '\x7d') = true := by
      intro c hc
      exact decide_eq_true fun e => hu (e ▸ hc)
    rw [List.takeWhile_append_of_pos hall, List.takeWhile_cons_of_neg (by decide), List.append_nil]
  rw [← key v s hv, h, key w t hw]

/-- One braced word stands in another only if they are the same. -/
theorem braced_infix_braced {v w : Text} (hne : w ≠ []) (hv : '\x7d' ∉ v)
    (hopen : '\x7b' ∉ w) (hclose : '\x7d' ∉ w) : braced v <:+: braced w ↔ v = w := by
  constructor
  · intro h
    have hbraces : ¬ ['\x7b', '\x7b'] <:+: '\x7b' :: (w ++ ['\x7d', '\x7d']) := by
      intro hb
      have htail : '\x7b' ∉ w ++ ['\x7d', '\x7d'] := by simp [hopen]
      obtain ⟨c, w, rfl⟩ := List.exists_cons_of_ne_nil hne
      rcases List.infix_cons_iff.1 hb with ⟨t, e⟩ | hb
      · have hc : '\x7b' = c := (List.cons.inj (List.cons.inj e).2).1
        exact hopen (hc ▸ List.mem_cons_self)
      · exact htail (hb.subset (by simp))
    rcases List.infix_cons_iff.1 h with ⟨t, e⟩ | h
    · have e' : v ++ '\x7d' :: ('\x7d' :: t) = w ++ '\x7d' :: ['\x7d'] := by
        simpa [braced] using e
      exact eq_of_append_brace hv hclose e'
    · exact absurd (List.IsInfix.trans ⟨[], v ++ ['\x7d', '\x7d'], by simp [braced]⟩ h) hbraces
  · rintro rfl
    exact List.infix_rfl

theorem isPlaceholder_iff_braced {s : Text} :
    IsPlaceholder s ↔ ∃ name, isName name = true ∧ s = braced name := Iff.rfl

theorem leftover_braced {w : Text} (hne : w ≠ []) (hopen : '\x7b' ∉ w) (hclose : '\x7d' ∉ w) :
    Leftover (braced w) ↔ isName w = true := by
  constructor
  · rintro ⟨token, ht, hs⟩
    obtain ⟨v, hv, rfl⟩ := isPlaceholder_iff_braced.1 ht
    have hvc : '\x7d' ∉ v := by
      intro hm
      have hp := all_isNamePart_of_isName hv _ hm
      revert hp
      decide
    rwa [← (braced_infix_braced hne hvc hopen hclose).1 hs]
  · intro h
    exact ⟨braced w, ⟨w, h, rfl⟩, List.infix_rfl⟩

theorem not_leftover_of_close_not_mem {s : Text} (h : '\x7d' ∉ s) : ¬ Leftover s := by
  rintro ⟨token, ⟨name, -, rfl⟩, hs⟩
  exact h (hs.subset (by simp))

/-- The name goes into a braced word only if that is the name token. -/
theorem substitute_braced {w : Text} (hne : w ≠ []) (hopen : '\x7b' ∉ w) (hclose : '\x7d' ∉ w)
    (n : Text) : substitute typeToken n (braced w) = if w = "TYPE".toList then n else braced w := by
  have ht : typeToken = braced "TYPE".toList := by decide
  split
  · next h =>
    rw [h, ← ht, substitute_self isPlaceholder_typeToken.ne_nil]
  · next h =>
    refine substitute_of_absent n ?_
    rw [ht, braced_infix_braced hne (by decide) hopen hclose]
    exact Ne.symm h

end Placeholder

/-! ### Probes -/

/-- A base whose members put the hooks before a word and two closing braces. -/
def probeBase (y : Text) : Fragment where
  header := interfacesToken
  members := validateToken ++ (y ++ ['\x7d', '\x7d'])

/-- A hook that puts the name after two opening braces and a word. -/
def probeHook (x : Text) : Fragment where
  hook := ['\x7b', '\x7b'] ++ x ++ typeToken

/-- A catalog that puts the name between two words. -/
def probeCatalog (x y : Text) : Catalog := Catalog.build
  [.put (.base .int) (probeBase y), .put (.implementation .int .validation) (probeHook x)]

def probeRequest (n : Text) : Request where
  name := n
  backing := .explicit .int
  converters := .explicit ∅
  implementations := .explicit (.ofList [.validation])

namespace Probe

variable {x y n : Text}

theorem requested (n : Text) (d : Defaults) :
    ((probeRequest n).filled d).requested = [.implementation .validation] := by
  have hconverters : (∅ : KindSet Converter).toList = [] := by decide
  have himplementations : (KindSet.ofList [Implementation.validation]).toList = [.validation] := by
    decide
  change (∅ : KindSet Converter).toList.map _ ++
    (KindSet.ofList [Implementation.validation]).toList.map _ = _
  rw [hconverters, himplementations]
  rfl

theorem select (x y n : Text) (d : Defaults) :
    ((probeRequest n).filled d).select (probeCatalog x y) =
      .ok { keys := [.base .int, .implementation .int .validation] } := by
  rw [Spec.select, requested]
  rfl

/-- What a probe is composed of. -/
def parts (x y : Text) : List Part :=
  [⟨.base .int, probeBase y⟩, ⟨.implementation .int .validation, probeHook x⟩]

theorem gather (x y n : Text) :
    Part.gather n (probeCatalog x y) [.base .int, .implementation .int .validation] =
      .ok (parts x y) := rfl

/-- The hook holds the name, which no braces close yet. -/
theorem renderAll_hook (y : Text) (hx : '\x7d' ∉ x) (hn : '\x7d' ∉ n) :
    Part.renderAll n (·.hook) (parts x y) = .ok [['\x7b', '\x7b'] ++ x ++ n] := by
  have hopen : ¬ typeToken <:+: ['\x7b', '\x7b'] ++ x := by
    intro h
    have hclose : '\x7d' ∉ ['\x7b', '\x7b'] ++ x := by simp [hx]
    exact hclose (h.subset (by decide))
  have hne := isPlaceholder_typeToken.ne_nil
  have hseam : ¬ Straddles typeToken (['\x7b', '\x7b'] ++ x) typeToken :=
    not_straddles_of_drop (by decide)
  have hclean : ¬ Leftover (['\x7b', '\x7b'] ++ x ++ n) :=
    not_leftover_of_close_not_mem (by simp [hx, hn])
  have hsections : Part.sections (·.hook) (parts x y) = [['\x7b', '\x7b'] ++ x ++ typeToken] := rfl
  rw [Part.renderAll_eq_ok, hsections, List.map_singleton,
    substitute_append hne n hseam, substitute_of_absent n hopen, substitute_self hne]
  exact ⟨rfl, by simpa using hclean⟩

theorem render_header (n : Text) (key : Key) :
    render n key (substitute interfacesToken [] interfacesToken) = .ok [] := by
  rw [substitute_self (by decide)]
  rfl

/-- The hooks in the base members, before the name is put into those. -/
theorem substitute_body (hy : '\x7b' ∉ y) (hooks : Text) :
    substitute validateToken hooks (validateToken ++ (y ++ ['\x7d', '\x7d'])) =
      hooks ++ y ++ ['\x7d', '\x7d'] := by
  have hrest : ¬ validateToken <:+: y ++ ['\x7d', '\x7d'] := by
    intro h
    have hopen : '\x7b' ∉ y ++ ['\x7d', '\x7d'] := by simp [hy]
    exact hopen (h.subset (by decide))
  rw [substitute_token_append (by decide), substitute_of_absent hooks hrest, List.append_assoc]

/-- A probe's verdict is that of rendering a braced word with the name in it. -/
theorem verdict_generate (hx : '\x7d' ∉ x) (hy : '\x7b' ∉ y) (hn : isIdentifier n = true)
    (d : Defaults) : verdict ((probeRequest n).generate d (probeCatalog x y)) =
      verdict (render n (.base .int) (braced (x ++ n ++ y))) := by
  have hwell : (probeRequest n).WellNamed := ⟨hn, fun _ h => by cases h⟩
  have hname : ((probeRequest n).filled d).name = n := rfl
  have hbase : Part.leadingBase ((probeRequest n).filled d) (parts x y) =
      .ok ⟨.base .int, probeBase y⟩ := rfl
  have hheader : Part.slotted n (.base .int) interfacesToken (probeBase y).header =
      .ok interfacesToken :=
    Part.slotted_eq_ok.2 ⟨rfl, List.infix_rfl⟩
  have hslot : Part.slotted n (.base .int) validateToken (probeBase y).members =
      .ok (validateToken ++ (y ++ ['\x7d', '\x7d'])) :=
    Part.slotted_eq_ok.2 ⟨rfl, (List.prefix_append _ _).isInfix⟩
  have hhooks := renderAll_hook y hx (not_mem_of_isIdentifier hn (by decide))
  have hbraced : [['\x7b', '\x7b'] ++ x ++ n].flatten ++ y ++ ['\x7d', '\x7d'] =
      braced (x ++ n ++ y) := by
    simp [braced]
  rw [Request.generate_of_wellNamed hwell, select, ok_bind, Spec.compose, hname, gather, ok_bind,
    hbase, ok_bind, hheader, ok_bind, hslot, ok_bind, hhooks, ok_bind, substitute_body hy, hbraced]
  change verdict (render n _ (substitute interfacesToken [] interfacesToken) >>= _) = _
  rw [render_header, ok_bind]
  -- nothing after the body can fail
  cases render n (.base .int) (braced (x ++ n ++ y)) with
  | error f => rfl
  | ok body => rfl

/-- How the name fares with a probe. -/
def outcome (x y n : Text) : Except Blame Unit :=
  verdict ((probeRequest n).generate .builtIn (probeCatalog x y))

theorem not_mem_of_all {w : Text} (h : w.all isNamePart = true) {c : Char}
    (hc : isNamePart c = false) : c ∉ w := by
  intro hm
  rw [List.all_eq_true.1 h c hm] at hc
  cases hc

/-- A probe refuses the names that make a placeholder of its words, the name token apart. -/
theorem outcome_eq_ok (hx : x.all isNamePart = true) (hy : y.all isNamePart = true)
    (hn : isIdentifier n = true) :
    outcome x y n = .ok () ↔ x ++ n ++ y = "TYPE".toList ∨ isName (x ++ n ++ y) = false := by
  have hxo : '\x7b' ∉ x := not_mem_of_all hx (by decide)
  have hxc : '\x7d' ∉ x := not_mem_of_all hx (by decide)
  have hyo : '\x7b' ∉ y := not_mem_of_all hy (by decide)
  have hyc : '\x7d' ∉ y := not_mem_of_all hy (by decide)
  have hno : '\x7b' ∉ n := not_mem_of_isIdentifier hn (by decide)
  have hnc : '\x7d' ∉ n := not_mem_of_isIdentifier hn (by decide)
  have hne : x ++ n ++ y ≠ [] := by simp [ne_nil_of_isIdentifier hn]
  have hopen : '\x7b' ∉ x ++ n ++ y := by simp [hxo, hno, hyo]
  have hclose : '\x7d' ∉ x ++ n ++ y := by simp [hxc, hnc, hyc]
  rw [outcome, verdict_generate hxc hyo hn, verdict_eq_ok]
  simp only [render_eq_ok, exists_eq_left, substitute_braced hne hopen hclose]
  by_cases ht : x ++ n ++ y = "TYPE".toList
  · rw [if_pos ht]
    exact iff_of_true (not_leftover_of_not_mem hno) (Or.inl ht)
  · rw [if_neg ht, leftover_braced hne hopen hclose, Bool.not_eq_true, or_iff_right ht]

end Probe

/-! ### Names that a probe tells apart -/

namespace Placeholder

theorem isName_append {s t : Text} (h : s ≠ []) :
    isName (s ++ t) = (isName s && t.all isNamePart) := by
  obtain ⟨c, s, rfl⟩ := List.exists_cons_of_ne_nil h
  simp [isName, Bool.and_assoc]

theorem isName_of_all_false {s : Text} (h : s.all isNamePart = false) : isName s = false := by
  cases hs : isName s with
  | false => rfl
  | true =>
    rw [List.all_eq_true.2 (all_isNamePart_of_isName hs)] at h
    cases h

end Placeholder

namespace Probe

variable {n m : Text}

theorem outcome_ne_of_all (hn : isIdentifier n = true) (hm : isIdentifier m = true)
    (han : n.all isNamePart = true) (ham : m.all isNamePart = false) :
    outcome ['A'] [] n ≠ outcome ['A'] [] m := by
  have hA : ['A'].all isNamePart = true := by decide
  have hnil : ([] : Text).all isNamePart = true := rfl
  have hname : ∀ k : Text, isName (['A'] ++ k ++ []) = k.all isNamePart := by
    intro k
    simp [isName]
  intro e
  have hm' : outcome ['A'] [] m = .ok () := by
    rw [outcome_eq_ok hA hnil hm, hname]
    exact Or.inr ham
  rw [← e, outcome_eq_ok hA hnil hn, hname, han] at hm'
  rcases hm' with h | h
  · have hhead := congrArg List.head? h
    revert hhead
    simp
  · cases h

theorem outcome_ne_of_isName (hn : isIdentifier n = true) (hm : isIdentifier m = true)
    (hnn : isName n = true) (hmn : isName m = false) : outcome [] ['X'] n ≠ outcome [] ['X'] m := by
  have hX : ['X'].all isNamePart = true := by decide
  have hnil : ([] : Text).all isNamePart = true := rfl
  have hname : ∀ k : Text, isIdentifier k = true → isName ([] ++ k ++ ['X']) = isName k := by
    intro k hk
    rw [List.nil_append, isName_append (ne_nil_of_isIdentifier hk), hX, Bool.and_true]
  intro e
  have hm' : outcome [] ['X'] m = .ok () := by
    rw [outcome_eq_ok hnil hX hm, hname m hm]
    exact Or.inr hmn
  rw [← e, outcome_eq_ok hnil hX hn, hname n hn, hnn] at hm'
  rcases hm' with h | h
  · have hlast := congrArg List.getLast? h
    revert hlast
    simp
  · cases h

/-- A part of the name token's name completes it where no other name does. -/
theorem outcome_ne_of_infix (hn : isIdentifier n = true) (hm : isIdentifier m = true)
    (hall : n.all isNamePart = m.all isNamePart) (hname : isName n = isName m) (hne : n ≠ m)
    {x y : Text} (h : x ++ n ++ y = "TYPE".toList) : outcome x y n ≠ outcome x y m := by
  have htype : (x ++ n ++ y).all isNamePart = true := by
    rw [h]
    decide
  rw [List.all_append, List.all_append, Bool.and_eq_true_iff, Bool.and_eq_true_iff] at htype
  obtain ⟨⟨hx, hn'⟩, hy⟩ := htype
  have hm' : m.all isNamePart = true := hall ▸ hn'
  intro e
  have hok : outcome x y n = .ok () := (outcome_eq_ok hx hy hn).2 (Or.inl h)
  rw [e, outcome_eq_ok hx hy hm] at hok
  rcases hok with h' | hfalse
  · exact hne (List.append_cancel_left (List.append_cancel_right (h.trans h'.symm)))
  · have hTYPE : isName (x ++ n ++ y) = true := by
      rw [h]
      decide
    by_cases hnil : x = []
    · subst hnil
      rw [List.nil_append, isName_append (ne_nil_of_isIdentifier hn), hname, hy] at hTYPE
      rw [List.nil_append, isName_append (ne_nil_of_isIdentifier hm), hy, hTYPE] at hfalse
      cases hfalse
    · rw [List.append_assoc, isName_append hnil, Bool.and_eq_true_iff] at hTYPE
      rw [List.append_assoc, isName_append hnil, hTYPE.1, List.all_append, hm', hy] at hfalse
      cases hfalse

/-- Names that fare alike with every probe can take each other's place. -/
theorem interchangeable_of_outcome_eq (hn : isIdentifier n = true) (hm : isIdentifier m = true)
    (hne : n ≠ m) (h : ∀ x y, outcome x y n = outcome x y m) : Interchangeable n m := by
  have hall : n.all isNamePart = m.all isNamePart := by
    cases han : n.all isNamePart <;> cases ham : m.all isNamePart
    · rfl
    · exact absurd (h _ _).symm (outcome_ne_of_all hm hn ham han)
    · exact absurd (h _ _) (outcome_ne_of_all hn hm han ham)
    · rfl
  have hname : isName n = isName m := by
    cases hnn : isName n <;> cases hmn : isName m
    · rfl
    · exact absurd (h _ _).symm (outcome_ne_of_isName hm hn hmn hnn)
    · exact absurd (h _ _) (outcome_ne_of_isName hn hm hnn hmn)
    · rfl
  refine ⟨hn, hm, ?_, ?_, hall, hname⟩
  · rintro ⟨x, y, e⟩
    exact outcome_ne_of_infix hn hm hall hname hne e (h x y)
  · rintro ⟨x, y, e⟩
    exact outcome_ne_of_infix hm hn hall.symm hname.symm (Ne.symm hne) e (h x y).symm

end Probe

/-! ### The names that stand for all -/

/-- Three names for the ways to fit into a placeholder, and the parts of the name token's name. -/
def standIns : List Text :=
  [['a'], ['A'], ['_']] ++ ("TYPE".toList.tails.flatMap List.inits).filter (· ≠ [])

theorem exists_standIn {k : Text} (hk : isIdentifier k = true) :
    ∃ p ∈ standIns, k = p ∨ Interchangeable k p := by
  by_cases ht : k <:+: "TYPE".toList
  · obtain ⟨t, hp, hs⟩ := List.infix_iff_prefix_suffix.1 ht
    refine ⟨k, List.mem_append_right _ (List.mem_filter.2 ⟨?_, ?_⟩), Or.inl rfl⟩
    · exact List.mem_flatMap.2 ⟨t, (List.mem_tails t _).2 hs, (List.mem_inits k t).2 hp⟩
    · simpa using ne_nil_of_isIdentifier hk
  · cases hall : k.all isNamePart with
    | false =>
      refine ⟨['a'], by simp [standIns], Or.inr ⟨hk, by decide, ht, by decide, ?_, ?_⟩⟩
      · rw [hall]
        decide
      · rw [isName_of_all_false hall]
        decide
    | true =>
      cases hname : isName k with
      | false =>
        refine ⟨['_'], by simp [standIns], Or.inr ⟨hk, by decide, ht, by decide, ?_, ?_⟩⟩
        · rw [hall]
          decide
        · rw [hname]
          decide
      | true =>
        refine ⟨['A'], by simp [standIns], Or.inr ⟨hk, by decide, ht, by decide, ?_, ?_⟩⟩
        · rw [hall]
          decide
        · rw [hname]
          decide

theorem isIdentifier_of_mem_standIns : ∀ p ∈ standIns, isIdentifier p = true := by
  decide

namespace Request

/-- For a given request and catalog the verdict is the same for all names exactly when it is for
the stand-ins; and two names get the same verdicts everywhere exactly when they are equal or
interchangeable. -/
theorem verdict_eq_iff (r : Request) (d : Defaults) (c : Catalog)
    (hscope : ∀ scope ∈ r.scope, isDotted scope = true) :
    ((∀ n m : Text, isIdentifier n = true → isIdentifier m = true →
        verdict ({ r with name := n }.generate d c) =
          verdict ({ r with name := m }.generate d c)) ↔
      ∀ p ∈ standIns, verdict ({ r with name := p }.generate d c) =
        verdict ({ r with name := ['a'] }.generate d c)) ∧
    ∀ n m : Text, isIdentifier n = true → isIdentifier m = true →
      ((∀ (r : Request) (d : Defaults) (c : Catalog),
          (∀ scope ∈ r.scope, isDotted scope = true) →
            verdict ({ r with name := n }.generate d c) =
              verdict ({ r with name := m }.generate d c)) ↔
        n = m ∨ Interchangeable n m) := by
  constructor
  · constructor
    · intro h p hp
      exact h p ['a'] (isIdentifier_of_mem_standIns p hp) (by decide)
    · intro h
      have hall : ∀ k, isIdentifier k = true → verdict ({ r with name := k }.generate d c) =
          verdict ({ r with name := ['a'] }.generate d c) := by
        intro k hk
        obtain ⟨p, hp, rfl | hkp⟩ := exists_standIn hk
        · exact h k hp
        · exact (hkp.verdict_generate r d c hscope).trans (h p hp)
      intro n m hn hm
      rw [hall n hn, hall m hm]
  · intro n m hn hm
    constructor
    · intro h
      by_cases hne : n = m
      · exact Or.inl hne
      · have hprobe : ∀ x y, Probe.outcome x y n = Probe.outcome x y m := fun x y =>
          h (probeRequest n) .builtIn (probeCatalog x y) fun _ hs => by cases hs
        exact Or.inr (Probe.interchangeable_of_outcome_eq hn hm hne hprobe)
    · rintro (rfl | h) r d c hscope
      · rfl
      · exact h.verdict_generate r d c hscope

/-- With a small letter before its slot a catalog treats all names alike, and names that both hold
a small letter share their verdicts. -/
theorem verdict_eq_foo :
    (∀ scope ∈ (probeRequest []).scope, isDotted scope = true) ∧
    (∀ n m : Text, isIdentifier n = true → isIdentifier m = true →
      verdict ((probeRequest n).generate .builtIn (probeCatalog ['a'] [])) =
        verdict ((probeRequest m).generate .builtIn (probeCatalog ['a'] []))) ∧
    ∀ (r : Request) (d : Defaults) (c : Catalog), (∀ scope ∈ r.scope, isDotted scope = true) →
      verdict ({ r with name := "foo".toList }.generate d c) =
        verdict ({ r with name := "Foo".toList }.generate d c) := by
  have hscope : ∀ scope ∈ (probeRequest []).scope, isDotted scope = true := fun _ hs => by cases hs
  have h := verdict_eq_iff (probeRequest []) .builtIn (probeCatalog ['a'] []) hscope
  have hfoo : Interchangeable "foo".toList "Foo".toList := by constructor <;> decide +kernel
  refine ⟨hscope, h.1.2 ?_, (h.2 _ _ hfoo.left hfoo.right).2 (Or.inr hfoo)⟩
  decide +kernel

/-- A type name in capitals can complete a placeholder where one in small letters does not. -/
theorem exists_verdict_ne : ¬ ∀ (r : Request) (d : Defaults) (c : Catalog) (n m : Text),
    isIdentifier n = true → isIdentifier m = true → (∀ scope ∈ r.scope, isDotted scope = true) →
      verdict ({ r with name := n }.generate d c) =
        verdict ({ r with name := m }.generate d c) := by
  intro h
  have hfoo := h (probeRequest []) .builtIn (probeCatalog ['A'] []) "FOO".toList "foo".toList
    (by decide +kernel) (by decide +kernel) fun _ hs => by cases hs
  exact Probe.outcome_ne_of_all (by decide +kernel) (by decide +kernel) (by decide +kernel)
    (by decide +kernel) hfoo

end Request
end TypedId
