import TypedId.Association
import TypedId.Key
import TypedId.Fragment

/-!
# Catalogs

A catalog assigns fragments to keys. A key without a fragment says that the capability means
nothing for the backing. The view of a catalog is `lookup`; entries stand in the order of keys, so
catalogs with equal look-ups are equal.
-/

namespace TypedId

/-- A list of entries in strictly ascending order of keys. -/
def Ordered (entries : List (Key × Fragment)) : Prop :=
  entries.Pairwise fun a b => a.1.rank < b.1.rank

structure Catalog where
  entries : List (Key × Fragment)
  ordered : Ordered entries

namespace Catalog

/-- Puts an entry at its place and drops an older one for the key. -/
def place (k : Key) (f : Fragment) : List (Key × Fragment) → List (Key × Fragment)
  | [] => [(k, f)]
  | e :: rest =>
    if k.rank < e.1.rank then (k, f) :: e :: rest
    else if e.1 = k then (k, f) :: rest
    else e :: place k f rest

theorem mem_place {k : Key} {f : Fragment} {e : Key × Fragment} {l : List (Key × Fragment)}
    (h : e ∈ place k f l) : e = (k, f) ∨ e ∈ l := by
  induction l with
  | nil => exact Or.inl (by simpa [place] using h)
  | cons x l ih =>
    rw [place] at h
    split at h
    · simpa using h
    · split at h
      · rcases List.mem_cons.1 h with h | h
        · exact Or.inl h
        · exact Or.inr (List.mem_cons_of_mem _ h)
      · rcases List.mem_cons.1 h with h | h
        · exact Or.inr (h ▸ List.mem_cons_self)
        · exact (ih h).imp_right (List.mem_cons_of_mem _)

theorem ordered_place (k : Key) (f : Fragment) {l : List (Key × Fragment)} (h : Ordered l) :
    Ordered (place k f l) := by
  induction l with
  | nil => exact List.pairwise_singleton _ _
  | cons e l ih =>
    obtain ⟨he, hl⟩ := List.pairwise_cons.1 h
    rw [place]
    split
    · rename_i hk
      refine List.pairwise_cons.2 ⟨fun a ha => ?_, h⟩
      rcases List.mem_cons.1 ha with rfl | ha
      · exact hk
      · exact Nat.lt_trans hk (he a ha)
    · split
      · rename_i hk
        exact List.pairwise_cons.2 ⟨fun a ha => hk ▸ he a ha, hl⟩
      · rename_i hk hne
        refine List.pairwise_cons.2 ⟨fun a ha => ?_, ih hl⟩
        rcases mem_place ha with rfl | ha
        · exact Nat.lt_of_le_of_ne (Nat.le_of_not_lt hk) fun h => hne (Key.rank_injective h)
        · exact he a ha

/-- The catalog without fragments. -/
def empty : Catalog := ⟨[], List.Pairwise.nil⟩

/-- The fragment of a key. -/
def lookup (c : Catalog) (k : Key) : Option Fragment := c.entries.lookup k

/-- Assigns a fragment to a key, in place of an older one. -/
def insert (c : Catalog) (k : Key) (f : Fragment) : Catalog :=
  ⟨place k f c.entries, ordered_place k f c.ordered⟩

/-- Takes the fragment of a key away. -/
def erase (c : Catalog) (k : Key) : Catalog :=
  ⟨c.entries.filter (·.1 ≠ k), List.Pairwise.filter _ c.ordered⟩

/-- Copies every fragment of `d`. -/
def extend (c d : Catalog) : Catalog := d.entries.foldl (fun c e => c.insert e.1 e.2) c

/-- The keys that have a fragment, in order. -/
def keys (c : Catalog) : List Key := c.entries.map (·.1)

/-- The number of fragments. -/
def size (c : Catalog) : Nat := c.entries.length

def isEmpty (c : Catalog) : Bool := c.entries.isEmpty

/-- The catalog of a function from keys to fragments. -/
def ofFunction (f : Key → Option Fragment) : Catalog where
  entries := Key.all.filterMap fun k => (f k).map (k, ·)
  ordered := by
    refine List.pairwise_filterMap.2 (Key.all_ascending.imp fun {a b} h x hx y hy => ?_)
    obtain ⟨_, _, rfl⟩ := Option.map_eq_some_iff.1 hx
    obtain ⟨_, _, rfl⟩ := Option.map_eq_some_iff.1 hy
    exact h

/-! ### Look-up -/

theorem lookup_place (k j : Key) (f : Fragment) (l : List (Key × Fragment)) :
    (place k f l).lookup j = if j = k then some f else l.lookup j := by
  induction l with
  | nil => rw [place, lookup_cons_eq]
  | cons e l ih =>
    obtain ⟨i, g⟩ := e
    rw [place]
    split
    · exact lookup_cons_eq _ k j f
    · split
      · rename_i hi
        simp only at hi
        rw [lookup_cons_eq, lookup_cons_eq, hi]
        by_cases hj : j = k <;> simp [hj]
      · rename_i hi
        simp only at hi
        rw [lookup_cons_eq, lookup_cons_eq, ih]
        by_cases hj : j = i
        · simp [hj, hi]
        · simp [hj]

theorem lookup_insert (c : Catalog) (k j : Key) (f : Fragment) :
    (c.insert k f).lookup j = if j = k then some f else c.lookup j :=
  lookup_place k j f c.entries

theorem lookup_erase (c : Catalog) (k j : Key) :
    (c.erase k).lookup j = if j = k then none else c.lookup j :=
  lookup_filter_ne c.entries k j

end Catalog
end TypedId
