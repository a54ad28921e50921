import TypedId.Builtin
import TypedId.Proofs.Generation
import TypedId.Proofs.Selection

/-!
# What a run looks up

A run for a spec looks up the base of its backing and the fragments of what the spec asks for.
Catalogs that agree on these keys give one answer, so an edit under any other key changes nothing.
-/

namespace TypedId

namespace Spec

/-- Whether a run for the spec looks a key up. -/
def Reads (s : Spec) : Key → Prop
  | .base b => b = s.backing
  | .converter b k => b = s.backing ∧ k ∈ s.converters
  | .implementation b k => b = s.backing ∧ k ∈ s.implementations

instance (s : Spec) : ∀ key, Decidable (s.Reads key)
  | .base b => inferInstanceAs (Decidable (b = s.backing))
  | .converter b k => inferInstanceAs (Decidable (b = s.backing ∧ k ∈ s.converters))
  | .implementation b k => inferInstanceAs (Decidable (b = s.backing ∧ k ∈ s.implementations))

theorem reads_ofCapability {s : Spec} {cap : Capability} :
    s.Reads (.ofCapability s.backing cap) ↔ s.Requests cap := by
  cases cap <;> simp [Reads, Requests, Key.ofCapability]

/-- Two catalogs both lack a key that the spec reads, or hold equal fragments for it. -/
def SeesAlike (s : Spec) (c c' : Catalog) : Prop :=
  ∀ key, s.Reads key → c.lookup key = c'.lookup key

variable {s : Spec} {c c' : Catalog}

theorem seesAlike_insert {key : Key} (h : ¬ s.Reads key) (c : Catalog) (f : Fragment) :
    s.SeesAlike (c.insert key f) c := by
  intro j hj
  have hne : j ≠ key := by
    intro e
    exact h (e ▸ hj)
  rw [Catalog.lookup_insert, if_neg hne]

theorem seesAlike_erase {key : Key} (h : ¬ s.Reads key) (c : Catalog) :
    s.SeesAlike (c.erase key) c := by
  intro j hj
  have hne : j ≠ key := by
    intro e
    exact h (e ▸ hj)
  rw [Catalog.lookup_erase, if_neg hne]

/-! ### Selection -/

theorem consider_congr {cap : Capability}
    (h : c.lookup (.ofCapability s.backing cap) = c'.lookup (.ofCapability s.backing cap))
    (sel : Selection) : Selection.consider c s sel cap = Selection.consider c' s sel cap := by
  have hrefusal : Selection.refusal? c s sel cap = Selection.refusal? c' s sel cap := by
    rw [Selection.refusal?, Selection.refusal?, h]
  rw [Selection.consider, Selection.consider, hrefusal]

theorem select_congr (h : s.SeesAlike c c') : s.select c = s.select c' := by
  have hbase : c.lookup (.base s.backing) = c'.lookup (.base s.backing) := h _ rfl
  have hloop : s.requested.foldl (Selection.consider c s) { keys := [.base s.backing] } =
      s.requested.foldl (Selection.consider c' s) { keys := [.base s.backing] } := by
    apply List.foldl_ext
    intro sel cap hcap
    have hread : s.Reads (.ofCapability s.backing cap) := reads_ofCapability.2 (mem_requested.1 hcap)
    exact consider_congr (h _ hread) sel
  rw [select, select, hbase, hloop]

theorem reads_of_mem_keys {sel : Selection} (hsel : s.select c = .ok sel) {key : Key}
    (hk : key ∈ sel.keys) : s.Reads key := by
  obtain ⟨-, rfl⟩ := select_eq_ok.1 hsel
  rcases List.mem_cons.1 hk with rfl | hk
  · rfl
  · obtain ⟨cap, hcap, rfl⟩ := List.mem_map.1 hk
    have hreq := mem_requested.1 (List.mem_filter.1 hcap).1
    exact reads_ofCapability.2 hreq

/-! ### Composition -/

theorem gather_congr {keys : List Key} (h : ∀ key ∈ keys, c.lookup key = c'.lookup key)
    (name : Text) : Part.gather name c keys = Part.gather name c' keys := by
  rw [Part.gather, Part.gather]
  induction keys with
  | nil => rfl
  | cons key keys ih =>
    have hkey := h key List.mem_cons_self
    have hrest := ih fun j hj => h j (List.mem_cons_of_mem key hj)
    rw [List.mapM_cons, List.mapM_cons, hkey, hrest]

theorem compose_congr {sel : Selection} (h : ∀ key ∈ sel.keys, c.lookup key = c'.lookup key) :
    s.compose sel c = s.compose sel c' := by
  rw [compose, compose, gather_congr h]

theorem select_compose_congr (h : s.SeesAlike c c') :
    (s.select c >>= fun sel => s.compose sel c) = s.select c' >>= fun sel => s.compose sel c' := by
  rw [← select_congr h]
  cases hsel : s.select c with
  | error f => rfl
  | ok sel => exact compose_congr fun key hk => h key (reads_of_mem_keys hsel hk)

end Spec

namespace Request

theorem generate_congr {r : Request} {d : Defaults} {c c' : Catalog}
    (h : ∀ s, r.resolve d = .ok s → s.SeesAlike c c') : r.generate d c = r.generate d c' := by
  rw [generate, generate]
  cases hs : r.resolve d with
  | error f => rfl
  | ok s => exact s.select_compose_congr (h s hs)

/-- The answer to a request depends on the keys that its spec reads: catalogs that agree there give
one answer, and what is put under another key or taken from it changes nothing. -/
theorem generate_local (r : Request) (d : Defaults) :
    (∀ c c', (∀ s, r.resolve d = .ok s → s.SeesAlike c c') →
      r.generate d c = r.generate d c') ∧
    ∀ key, (∀ s, r.resolve d = .ok s → ¬ s.Reads key) → ∀ c,
      (∀ f, r.generate d (c.insert key f) = r.generate d c) ∧
        r.generate d (c.erase key) = r.generate d c := by
  refine ⟨fun c c' h => generate_congr h, fun key hkey c => ⟨fun f => ?_, ?_⟩⟩
  · exact generate_congr fun s hs => Spec.seesAlike_insert (hkey s hs) c f
  · exact generate_congr fun s hs => Spec.seesAlike_erase (hkey s hs) c

/-- The built-in catalog without the base of one backing, and with a broken adapter on another. The
built-in defaults name neither. -/
def damagedCatalog : Catalog :=
  (Builtin.catalog.erase (.base .int)).insert (.converter .guid .dapperTypeHandler)
    { sibling := "\x7b\x7bBROKEN\x7d\x7d".toList }

def undamagedRequest : Request := { name := "OrderId".toList }

theorem generate_damagedCatalog :
    (∀ s, undamagedRequest.resolve .builtIn = .ok s → s.SeesAlike damagedCatalog Builtin.catalog) ∧
    (∀ s, undamagedRequest.resolve .builtIn = .ok s → ¬ s.Reads (.base .int)) ∧
    undamagedRequest.generate .builtIn damagedCatalog =
      undamagedRequest.generate .builtIn Builtin.catalog ∧
    undamagedRequest.generate .builtIn (Builtin.catalog.erase (.base .int)) =
      undamagedRequest.generate .builtIn Builtin.catalog := by
  have hint : ∀ s, undamagedRequest.resolve .builtIn = .ok s → ¬ s.Reads (.base .int) := by
    intro s hs
    obtain ⟨-, rfl⟩ := resolve_eq_ok.1 hs
    decide
  have hdapper : ∀ s, undamagedRequest.resolve .builtIn = .ok s →
      ¬ s.Reads (.converter .guid .dapperTypeHandler) := by
    intro s hs
    obtain ⟨-, rfl⟩ := resolve_eq_ok.1 hs
    decide
  have halike : ∀ s, undamagedRequest.resolve .builtIn = .ok s →
      s.SeesAlike damagedCatalog Builtin.catalog := by
    intro s hs key hk
    have hput := Spec.seesAlike_insert (hdapper s hs) (Builtin.catalog.erase (.base .int))
      { sibling := "\x7b\x7bBROKEN\x7d\x7d".toList } key hk
    exact hput.trans (Spec.seesAlike_erase (hint s hs) Builtin.catalog key hk)
  have hlocal := generate_local undamagedRequest .builtIn
  exact ⟨halike, hint, hlocal.1 _ _ halike, (hlocal.2 _ hint _).2⟩

end Request
end TypedId
