import TypedId.Proofs.Authored
import TypedId.Proofs.Selection

/-!
# Units of the built-in catalog

With the built-in catalog every well-named request gets a unit. Its source is one template, which
the settings and the namespace determine, with the name in place of the name tokens.
-/

namespace TypedId

open Placeholder Text

namespace Catalog

theorem lookup_ofFunction (f : Key → Option Fragment) (k : Key) :
    (ofFunction f).lookup k = f k := by
  have hlist : ∀ keys : List Key, (keys.filterMap fun k => (f k).map (k, ·)).lookup k =
      if k ∈ keys then f k else none := by
    intro keys
    induction keys with
    | nil => rfl
    | cons j keys ih =>
      cases hj : f j with
      | none =>
        rw [List.filterMap_cons_none (by rw [hj]; rfl), ih]
        by_cases hk : k = j
        · subst hk
          simp [hj]
        · simp [hk]
      | some g =>
        rw [List.filterMap_cons_some (by rw [hj]; rfl), lookup_cons_eq, ih]
        by_cases hk : k = j
        · subst hk
          simp [hj]
        · simp [hk]
  exact (hlist Key.all).trans (if_pos (Key.mem_all k))

end Catalog

namespace Builtin

theorem lookup_catalog (k : Key) : catalog.lookup k = fragment k :=
  Catalog.lookup_ofFunction fragment k

theorem tidy_fragment {b : Backing} {cap : Capability} {f : Fragment}
    (h : fragment (.ofCapability b cap) = some f) : f.Tidy := by
  cases cap with
  | converter k =>
    cases h
    exact tidy_converter b k
  | implementation k => exact tidy_implementation h

/-- The selection for a spec. -/
def selection (s : Spec) : Selection := s.chosen catalog s.requested

/-- The unit of a spec with the name left open. -/
def draft (s : Spec) : Assembly :=
  (frame s.backing).draft ⟨.base s.backing, base s.backing⟩ (catalog.parts (selection s).keys)
    (selection s).implementations

/-- What the settings and the namespace make of a source. -/
def template (scope : Option Text) (b : Backing) (converters : KindSet Converter)
    (implementations : KindSet Implementation) : Text :=
  (draft ⟨[], scope, b, converters, implementations⟩).text scope

theorem select_eq_ok (s : Spec) : s.select catalog = .ok (selection s) := by
  rw [Spec.select_eq, lookup_catalog]
  rfl

theorem parts_selection (s : Spec) : catalog.parts (selection s).keys =
    ⟨.base s.backing, base s.backing⟩ ::
      catalog.parts ((s.requested.filter (s.keeps catalog)).map (.ofCapability s.backing)) := by
  change List.filterMap _ (Key.base s.backing :: _) = _
  rw [List.filterMap_cons_some (by rw [lookup_catalog]; rfl)]
  rfl

theorem tidy_draft (s : Spec) : (draft s).Tidy := by
  rw [draft, parts_selection]
  refine Frame.tidy_draft (tidy_frame s.backing) rfl (fun p hp => ?_) _
  obtain ⟨hkey, hlookup⟩ := Catalog.mem_parts hp
  obtain ⟨cap, -, hcap⟩ := List.mem_map.1 hkey
  rw [lookup_catalog, ← hcap] at hlookup
  exact tidy_fragment hlookup

theorem steps_draft {s : Spec} (hname : isIdentifier s.name = true) :
    Assembly.Steps s (selection s) catalog ((draft s).named s.name) := by
  have hheld : ∀ k ∈ (selection s).keys, (catalog.lookup k).isSome = true := fun k hk =>
    Spec.held_chosen (by rw [lookup_catalog]; rfl) hk
  refine Frame.steps (tidy_frame s.backing) hname (Catalog.gather_parts hheld s.name) ?_
    (base_header s.backing) (base_members s.backing) (tidy_draft s)
  rw [Part.leadingBase_eq_ok, parts_selection]
  exact ⟨rfl, rfl⟩

end Builtin

/-- Every well-named request gets a unit of the built-in catalog: the template with the name in it,
where no double brace is left. -/
theorem Request.generate_builtin {r : Request} (h : r.WellNamed) (d : Defaults) :
    ∃ u, r.generate d Builtin.catalog = .ok u ∧
      u.source = substitute typeToken r.name (Builtin.template r.scope (r.backing.getD d.backing)
        (r.converters.getD d.converters) (r.implementations.getD d.implementations)) ∧
      ¬ ['\x7b', '\x7b'] <:+: u.source := by
  have htidy := Builtin.tidy_draft (r.filled d)
  have hsteps := Builtin.steps_draft (s := r.filled d) h.name
  have hsource : (((Builtin.draft (r.filled d)).named r.name).unit (r.filled d)
      (Builtin.selection (r.filled d))).source =
        substitute typeToken r.name ((Builtin.draft (r.filled d)).text r.scope) := by
    rw [Assembly.source_unit]
    exact htidy.text_named h.scope r.name
  refine ⟨_, Request.generate_eq_ok.2 ⟨_, _, h, Builtin.select_eq_ok _, hsteps, rfl⟩, hsource, ?_⟩
  change ¬ _ <:+: (((Builtin.draft (r.filled d)).named r.name).unit (r.filled d)
      (Builtin.selection (r.filled d))).source
  rw [hsource]
  exact htidy.nameOnly_text h.scope r.name h.name

/-- A request that names a namespace and leaves the rest to the defaults. -/
def orderRequest : Request := { name := "OrderId".toList, scope := some "Shop.Orders".toList }

theorem Request.generate_orderRequest : orderRequest.WellNamed ∧
    ∃ u, orderRequest.generate .builtIn Builtin.catalog = .ok u ∧
      u.source = substitute typeToken "OrderId".toList
        (Builtin.template (some "Shop.Orders".toList) Defaults.builtIn.backing
          Defaults.builtIn.converters Defaults.builtIn.implementations) ∧
      ¬ ['\x7b', '\x7b'] <:+: u.source := by
  have h : orderRequest.WellNamed := ⟨by decide +kernel, by decide +kernel⟩
  exact ⟨h, generate_builtin h .builtIn⟩

end TypedId
