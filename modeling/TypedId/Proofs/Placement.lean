import TypedId.Proofs.Growth

/-!
# Where the sections of a fragment stand

Composing gives each section of a chosen fragment one place. Only a base gives the header and fills
the slots, and a base gives no attribute line and no adapter; what stands in those sections changes
nothing. Hooks stand in the validation slots as they are, unless the text around a slot makes a name
token with them.
-/

namespace TypedId

open Placeholder Text

namespace Text

/-! ### Slots -/

/-- No token lies across an edge of the slots between some pieces when they hold a value. -/
def SlotsApart (token value : Text) : List Text → Prop
  | [] => True
  | [_] => True
  | p :: q :: ps =>
    ¬ Straddles token p (value ++ value.intercalate (q :: ps)) ∧
      ¬ Straddles token value (value.intercalate (q :: ps)) ∧ SlotsApart token value (q :: ps)

/-- A value without the token stays as it is in every slot. -/
theorem substitute_slots {token value : Text} (hne : token ≠ []) (hvalue : ¬ token <:+: value)
    (x : Text) {ps : List Text} (h : SlotsApart token value ps) :
    substitute token x (value.intercalate ps) =
      value.intercalate (ps.map (substitute token x)) := by
  induction ps with
  | nil => simp [List.intercalate_nil]
  | cons p ps ih =>
    cases ps with
    | nil => simp
    | cons q ps =>
      obtain ⟨hleft, hright, hrest⟩ := h
      rw [List.intercalate_cons_cons, List.append_assoc, substitute_append hne x hleft,
        substitute_append hne x hright, substitute_of_absent x hvalue, ih hrest]
      simp

end Text

/-! ### The sections that are used -/

namespace Fragment

/-- A fragment without the sections that have no place under its key. -/
def used : Key → Fragment → Fragment
  | .base _, f => { f with attributeLine := none, sibling := none }
  | _, f => { f with header := none }

end Fragment

namespace Part

def used (p : Part) : Part := ⟨p.key, p.fragment.used p.key⟩

theorem hook_used (p : Part) : p.used.fragment.hook = p.fragment.hook := by
  obtain ⟨key, f⟩ := p
  cases key <;> rfl

theorem members_used (p : Part) : p.used.fragment.members = p.fragment.members := by
  obtain ⟨key, f⟩ := p
  cases key <;> rfl

theorem renderAll_used {pick : Fragment → Option Text} {parts : List Part}
    (h : ∀ p ∈ parts, pick p.used.fragment = pick p.fragment) (name : Text) :
    renderAll name pick (parts.map used) = renderAll name pick parts := by
  have hsections : (parts.map used).filterMap (fun p => (pick p.fragment).map (p.key, ·)) =
      parts.filterMap fun p => (pick p.fragment).map (p.key, ·) := by
    rw [List.filterMap_map]
    refine List.filterMap_congr fun p hp => ?_
    have hp' := h p hp
    simp only [Function.comp_apply, hp']
    rfl
  rw [renderAll, renderAll, hsections]

variable {pick : Fragment → Option Text} {parts parts' : List Part}

theorem renderAll_congr (hused : parts.map used = parts'.map used)
    (h : ∀ p ∈ parts, pick p.used.fragment = pick p.fragment)
    (h' : ∀ p ∈ parts', pick p.used.fragment = pick p.fragment) (name : Text) :
    renderAll name pick parts = renderAll name pick parts' := by
  rw [← renderAll_used h, ← renderAll_used h', hused]

theorem map_used_filter {q : Part → Bool} (hq : ∀ p : Part, q p.used = q p)
    (hused : parts.map used = parts'.map used) :
    (parts.filter q).map used = (parts'.filter q).map used := by
  have hcomm : ∀ l : List Part, (l.filter q).map used = (l.map used).filter q := by
    intro l
    have hq' : q ∘ used = q := funext hq
    rw [List.filter_map, hq']
  rw [hcomm, hcomm, hused]

end Part

/-- Two catalogs differ at most in sections that have no place. -/
def Catalog.Alike (c c' : Catalog) : Prop :=
  ∀ key, (c.lookup key).map (Fragment.used key) = (c'.lookup key).map (Fragment.used key)

namespace Catalog.Alike

variable {c c' : Catalog}

theorem isSome_eq (h : c.Alike c') (key : Key) :
    (c.lookup key).isSome = (c'.lookup key).isSome := by
  have hkey := congrArg Option.isSome (h key)
  rwa [Option.isSome_map, Option.isSome_map] at hkey

theorem map_used_parts (h : c.Alike c') (keys : List Key) :
    (c.parts keys).map Part.used = (c'.parts keys).map Part.used := by
  rw [parts, parts, List.map_filterMap, List.map_filterMap]
  refine List.filterMap_congr fun key _ => ?_
  have hkey := congrArg (Option.map (Part.mk key)) (h key)
  rw [Option.map_map, Option.map_map] at hkey ⊢
  exact hkey

theorem select_eq (h : c.Alike c') (s : Spec) : s.select c = s.select c' := by
  have happlies : s.applies c = s.applies c' := funext fun cap => h.isSome_eq _
  have hkeeps : s.keeps c = s.keeps c' := by
    funext cap
    rw [Spec.keeps, Spec.keeps, happlies]
  have hreason : s.dropReason? c = s.dropReason? c' := by
    funext cap
    rw [Spec.dropReason?, Spec.dropReason?, happlies, hkeeps]
  have hbase : (c.lookup (.base s.backing)).isNone = (c'.lookup (.base s.backing)).isNone := by
    rw [← Option.not_isSome, ← Option.not_isSome, h.isSome_eq]
  rw [Spec.select_eq, Spec.select_eq, hbase, Spec.chosen, Spec.chosen, hkeeps, hreason]

end Catalog.Alike

/-- The parts of a selection: the base, then the chosen capabilities. -/
theorem Spec.parts_of_select {s : Spec} {c : Catalog} {sel : Selection} (h : s.select c = .ok sel) :
    ∃ f rest, c.parts sel.keys = ⟨.base s.backing, f⟩ :: rest ∧
      Part.gather s.name c sel.keys = .ok (⟨.base s.backing, f⟩ :: rest) ∧
      ∀ p ∈ rest, ∃ cap, p.key = .ofCapability s.backing cap := by
  obtain ⟨hbase, rfl⟩ := Spec.select_eq_ok.1 h
  obtain ⟨f, hf⟩ := Option.isSome_iff_exists.1 hbase
  have hparts : c.parts (s.chosen c s.requested).keys = ⟨.base s.backing, f⟩ ::
      c.parts ((s.requested.filter (s.keeps c)).map (.ofCapability s.backing)) :=
    List.filterMap_cons_some (by rw [hf]; rfl)
  refine ⟨f, _, hparts, ?_, fun p hp => ?_⟩
  · rw [Catalog.gather_parts fun k hk => Spec.held_chosen hbase hk, hparts]
  · obtain ⟨cap, -, hcap⟩ := List.mem_map.1 (Catalog.mem_parts hp).1
    exact ⟨cap, hcap.symm⟩

namespace Part

theorem attributeLine_used {p : Part} {b : Backing} {cap : Capability}
    (h : p.key = .ofCapability b cap) :
    p.used.fragment.attributeLine = p.fragment.attributeLine := by
  obtain ⟨key, f⟩ := p
  obtain rfl : key = _ := h
  cases cap <;> rfl

theorem sibling_used {p : Part} {b : Backing} {cap : Capability}
    (h : p.key = .ofCapability b cap) : p.used.fragment.sibling = p.fragment.sibling := by
  obtain ⟨key, f⟩ := p
  obtain rfl : key = _ := h
  cases cap <;> rfl

end Part

theorem Catalog.Alike.compose_eq {c c' : Catalog} (h : c.Alike c') {s : Spec} {sel : Selection}
    (hsel : s.select c = .ok sel) : s.compose sel c = s.compose sel c' := by
  have hsel' := hsel
  rw [h.select_eq] at hsel'
  obtain ⟨f, rest, hparts, hgather, hcaps⟩ := Spec.parts_of_select hsel
  obtain ⟨f', rest', hparts', hgather', hcaps'⟩ := Spec.parts_of_select hsel'
  have hused := h.map_used_parts sel.keys
  rw [hparts, hparts'] at hused
  obtain ⟨hfirst, hrest⟩ := List.cons.inj hused
  have hbase : Fragment.used (.base s.backing) f = Fragment.used (.base s.backing) f' :=
    congrArg Part.fragment hfirst
  have hheader : f.header = f'.header := by
    have h := congrArg Fragment.header hbase
    exact h
  have hmembers : f.members = f'.members := by
    have h := congrArg Fragment.members hbase
    exact h
  have hleading : ∀ g rest, Part.leadingBase s (⟨.base s.backing, g⟩ :: rest) =
      .ok ⟨.base s.backing, g⟩ := fun _ _ => Part.leadingBase_eq_ok.2 ⟨rfl, rfl⟩
  have himpl := Part.map_used_filter (q := Part.isImplementation) (fun _ => rfl) hused
  have hconv := Part.map_used_filter (q := Part.isConverter) (fun _ => rfl) hused
  have hfiltered := congrArg₂ (· ++ ·) himpl hconv
  simp only [← List.map_append] at hfiltered
  rw [Spec.compose, Spec.compose, hgather, hgather']
  simp only [ok_bind, hleading, hheader, hmembers, List.tail_cons]
  -- hooks are read from all parts and members from the chosen kinds; attribute lines and siblings
  -- only after the base, where they are used
  rw [Part.renderAll_congr hused (fun p _ => p.hook_used) fun p _ => p.hook_used,
    Part.renderAll_congr hfiltered (fun p _ => p.members_used) fun p _ => p.members_used,
    Part.renderAll_congr hrest (fun p hp => Part.attributeLine_used (hcaps p hp).choose_spec)
      fun p hp => Part.attributeLine_used (hcaps' p hp).choose_spec,
    Part.renderAll_congr hrest (fun p hp => Part.sibling_used (hcaps p hp).choose_spec)
      fun p hp => Part.sibling_used (hcaps' p hp).choose_spec]

theorem Request.generate_alike {c c' : Catalog} (h : c.Alike c') (r : Request) (d : Defaults) :
    r.generate d c = r.generate d c' := by
  rw [Request.generate, Request.generate]
  cases r.resolve d with
  | error f => rfl
  | ok s =>
    change (s.select c >>= _) = (s.select c' >>= _)
    rw [← h.select_eq]
    cases hsel : s.select c with
    | error f => rfl
    | ok sel => exact h.compose_eq hsel

/-! ### The places -/

/-- The sections of a base stand in the unit: header and members with their slots filled, and the
hook among those that fill the slots. -/
structure Assembly.HoldsBase (a : Assembly) (n : Text) (kinds : List Implementation)
    (f : Fragment) : Prop where
  header : ∃ t, f.header = some t ∧ interfacesToken <:+: t ∧
    a.header = substitute typeToken n (substitute interfacesToken (Interfaces.clause kinds) t)
  members : ∃ t, f.members = some t ∧ validateToken <:+: t ∧
    a.body = substitute typeToken n (a.hooks.flatten.intercalate (pieces validateToken t)) ∧
      (¬ typeToken <:+: a.hooks.flatten →
        SlotsApart typeToken a.hooks.flatten (pieces validateToken t) →
          a.body =
            a.hooks.flatten.intercalate ((pieces validateToken t).map (substitute typeToken n)))
  hook : ∀ t, f.hook = some t → substitute typeToken n t ∈ a.hooks

/-- The sections of a capability's fragment stand in the unit. -/
structure Assembly.Holds (a : Assembly) (n : Text) (f : Fragment) : Prop where
  attributeLine : ∀ t, f.attributeLine = some t → substitute typeToken n t ∈ a.attributeLines
  members : ∀ t, f.members = some t → substitute typeToken n t ∈ a.members
  hook : ∀ t, f.hook = some t → substitute typeToken n t ∈ a.hooks
  sibling : ∀ t, f.sibling = some t → substitute typeToken n t ∈ a.siblings

def Assembly.Shows (a : Assembly) (n : Text) (kinds : List Implementation) : Key → Fragment → Prop
  | .base _, f => a.HoldsBase n kinds f
  | _, f => a.Holds n f

theorem Part.mem_renderAll {name : Text} {pick : Fragment → Option Text} {parts : List Part}
    {texts : List Text} (h : renderAll name pick parts = .ok texts) {p : Part} (hp : p ∈ parts)
    {t : Text} (ht : pick p.fragment = some t) : substitute typeToken name t ∈ texts := by
  obtain ⟨rfl, -⟩ := renderAll_eq_ok.1 h
  exact List.mem_map_of_mem (Part.mem_sections.2 ⟨p, hp, ht⟩)

theorem Part.mem_members {p : Part} {b : Backing} {cap : Capability}
    (h : p.key = .ofCapability b cap) {parts : List Part} (hp : p ∈ parts) :
    p ∈ parts.filter isImplementation ++ parts.filter isConverter := by
  rw [List.mem_append, List.mem_filter, List.mem_filter, isImplementation, isConverter, h]
  cases cap with
  | converter k => exact Or.inr ⟨hp, rfl⟩
  | implementation k => exact Or.inl ⟨hp, rfl⟩

namespace Assembly.Steps

variable {s : Spec} {sel : Selection} {c : Catalog} {a : Assembly}

theorem holdsBase (h : a.Steps s sel c) {f : Fragment} (hbase : a.base = ⟨.base s.backing, f⟩)
    (hmem : a.base ∈ a.parts) : a.HoldsBase s.name sel.implementations f := by
  obtain ⟨hheader, hslot⟩ := Part.slotted_eq_ok.1 h.headerText
  obtain ⟨hmembers, hslot'⟩ := Part.slotted_eq_ok.1 h.bodyText
  have hbody := (render_eq_ok.1 h.body).1
  rw [hbase] at hheader hmembers hmem
  refine ⟨⟨_, hheader, hslot, (render_eq_ok.1 h.header).1⟩, ⟨_, hmembers, hslot', hbody, ?_⟩, ?_⟩
  · intro hvalue hapart
    rw [hbody]
    exact substitute_slots isPlaceholder_typeToken.ne_nil hvalue s.name hapart
  · intro t ht
    exact Part.mem_renderAll h.hooks hmem ht

theorem holds (h : a.Steps s sel c) {p : Part} {b : Backing} {cap : Capability}
    (hp : p ∈ a.parts.tail) (hkey : p.key = .ofCapability b cap) :
    a.Holds s.name p.fragment where
  attributeLine _ ht := Part.mem_renderAll h.attributeLines hp ht
  members _ ht := Part.mem_renderAll h.members (Part.mem_members hkey (List.mem_of_mem_tail hp)) ht
  hook _ ht := Part.mem_renderAll h.hooks (List.mem_of_mem_tail hp) ht
  sibling _ ht := Part.mem_renderAll h.siblings hp ht

theorem shows (h : a.Steps s sel c) (hsel : s.select c = .ok sel) {key : Key}
    (hk : key ∈ sel.keys) :
    ∃ f, c.lookup key = some f ∧ a.Shows s.name sel.implementations key f := by
  obtain ⟨f, rest, hparts, -, hcaps⟩ := Spec.parts_of_select hsel
  have hall : a.parts = ⟨.base s.backing, f⟩ :: rest := by
    rw [Catalog.parts_of_gather h.parts, hparts]
  have hbase : a.base = ⟨.base s.backing, f⟩ := by
    have hhead := (Part.leadingBase_eq_ok.1 h.base).1
    rw [hall] at hhead
    exact (Option.some.inj hhead).symm
  have hkeys := (Part.gather_eq_ok.1 h.parts).1
  have hlookup := (Part.gather_eq_ok.1 h.parts).2
  rw [← hkeys] at hk
  obtain ⟨p, hp, rfl⟩ := List.mem_map.1 hk
  refine ⟨p.fragment, hlookup p hp, ?_⟩
  rw [hall] at hp
  rcases List.mem_cons.1 hp with rfl | hp
  · exact h.holdsBase hbase (by rw [hbase, hall]; exact List.mem_cons_self)
  · obtain ⟨cap, hcap⟩ := hcaps p hp
    have hholds := h.holds (p := p) (by rw [hall]; exact hp) hcap
    rw [hcap]
    cases cap <;> exact hholds

end Assembly.Steps

namespace Request

/-- Every section of every chosen fragment stands in the unit at its place, but for the sections
without a place: an attribute line or sibling of a base and a header of anything else. These change
nothing. -/
theorem generate_places {r : Request} {d : Defaults} {c : Catalog} {u : SourceUnit}
    (h : r.generate d c = .ok u) :
    (∃ sel a, r.Builds d c sel a u ∧
      u.declarations =
        ⟨.primary, r.name, structText a.attributeLines a.header (a.body :: a.members)⟩ ::
          a.siblings.map (Declaration.ofSibling r.name) ∧
      ∀ key ∈ sel.keys, ∃ f, c.lookup key = some f ∧
        a.Shows r.name sel.implementations key f) ∧
    ∀ c', c.Alike c' → r.generate d c' = .ok u := by
  obtain ⟨sel, a, hbuild⟩ := exists_builds h
  refine ⟨⟨sel, a, hbuild, ?_, fun key hk => hbuild.steps.shows hbuild.select hk⟩, fun c' hc => ?_⟩
  · rw [hbuild.unit]
    rfl
  · rw [← generate_alike hc, h]

/-! ### Sections that are lost -/

/-- The base of this catalog has an attribute line and a sibling, and its members make a name token
with the hook. -/
def lossyCatalog : Catalog := Catalog.build [
  .put (.base .int) { attributeLine := "[Lost]".toList
                      header := "struct \x7b\x7bTYPE\x7d\x7d\x7b\x7bINTERFACES\x7d\x7d".toList
                      members := "\x7b\x7bTY\x7b\x7bVALIDATE\x7d\x7d\n".toList
                      sibling := "class Lost".toList },
  .put (.converter .int .typeConverter) { attributeLine := "[Convert]".toList
                                          header := "nowhere".toList
                                          members := "Nested\n".toList
                                          sibling := "class \x7b\x7bTYPE\x7d\x7dC\n".toList },
  .put (.implementation .int .validation) { hook := "PE\x7d\x7d".toList }]

def lossyRequest : Request where
  name := "A".toList
  backing := .explicit .int
  converters := .explicit (.ofList [.typeConverter])
  implementations := .explicit (.ofList [.validation])

def lossyUnit : SourceUnit where
  hintName := "A.g.cs".toList
  typeName := "A".toList
  declarations := [
    ⟨.primary, "A".toList, "[Convert]\nstruct A\n\x7b\nA\n\nNested\n\x7d\n".toList⟩,
    ⟨.sibling, "AC".toList, "class AC\n".toList⟩]
  diagnostics := []
  source := "// <auto-generated/>\n#nullable enable\n\n[Convert]\nstruct A\n".toList ++
    "\x7b\nA\n\nNested\n\x7d\n\nclass AC\n".toList

theorem generate_lossyRequest : lossyRequest.generate .builtIn lossyCatalog = .ok lossyUnit := by
  decide

/-- Under every chosen key this section of the fragment stands in the source. -/
def Preserves (pick : Fragment → Option Text) : Prop :=
  ∀ (r : Request) (d : Defaults) (c : Catalog) (u : SourceUnit) (sel : Selection),
    r.generate d c = .ok u → (r.filled d).select c = .ok sel → ∀ key ∈ sel.keys, ∀ f,
      c.lookup key = some f → ∀ t, pick f = some t → substitute typeToken r.name t <:+: u.source

/-- Attribute lines, siblings and hooks can be lost without a failure. -/
theorem exists_lost_section :
    ¬ Preserves (·.attributeLine) ∧ ¬ Preserves (·.sibling) ∧ ¬ Preserves (·.hook) := by
  have hsel : (lossyRequest.filled .builtIn).select lossyCatalog = .ok ⟨[.base .int,
      .converter .int .typeConverter, .implementation .int .validation], []⟩ := by decide
  have hgen := generate_lossyRequest
  refine ⟨fun h => ?_, fun h => ?_, fun h => ?_⟩
  · have hlost := h _ _ _ _ _ hgen hsel (.base .int) (by simp) _ rfl "[Lost]".toList rfl
    revert hlost
    decide +kernel
  · have hlost := h _ _ _ _ _ hgen hsel (.base .int) (by simp) _ rfl "class Lost".toList rfl
    revert hlost
    decide +kernel
  · have hlost := h _ _ _ _ _ hgen hsel (.implementation .int .validation) (by simp) _ rfl
      "PE\x7d\x7d".toList rfl
    revert hlost
    decide +kernel

/-- The same base without the sections that have no place. -/
def plainCatalog : Catalog := lossyCatalog.insert (.base .int)
  { header := "struct \x7b\x7bTYPE\x7d\x7d\x7b\x7bINTERFACES\x7d\x7d".toList
    members := "\x7b\x7bTY\x7b\x7bVALIDATE\x7d\x7d\n".toList }

theorem generate_plainCatalog : lossyRequest.generate .builtIn lossyCatalog = .ok lossyUnit ∧
    lossyCatalog.Alike plainCatalog ∧
    lossyRequest.generate .builtIn plainCatalog = .ok lossyUnit ∧
    ∃ sel a, lossyRequest.Builds .builtIn lossyCatalog sel a lossyUnit ∧
      ∀ key ∈ sel.keys, ∃ f, lossyCatalog.lookup key = some f ∧
        a.Shows "A".toList sel.implementations key f := by
  have halike : lossyCatalog.Alike plainCatalog := by
    intro key
    rw [plainCatalog, Catalog.lookup_insert]
    split
    · next hk =>
      subst hk
      rfl
    · rfl
  obtain ⟨⟨sel, a, hbuild, -, hshows⟩, hsame⟩ := generate_places generate_lossyRequest
  exact ⟨generate_lossyRequest, halike, hsame _ halike, sel, a, hbuild, hshows⟩

end Request

end TypedId
