import Mathlib.Data.List.Induction
import Mathlib.Logic.Function.Basic
import TypedId.Catalog.Edit

/-!
# Building catalogs step by step

A catalog is built by steps, one of which copies a catalog that was built by steps of its own. For
each key the last step that affects it decides; the order of keys is that of the finished catalog,
whatever the order of the steps.
-/

namespace TypedId

namespace Key

/-- The order of keys: bases before converters before implementations, then by backing, then by
kind. -/
def Precedes : Key → Key → Prop
  | base b, base b' => b.code < b'.code
  | base _, converter _ _ => True
  | base _, implementation _ _ => True
  | converter _ _, base _ => False
  | converter b k, converter b' k' => b.code < b'.code ∨ b = b' ∧ k.position < k'.position
  | converter _ _, implementation _ _ => True
  | implementation _ _, base _ => False
  | implementation _ _, converter _ _ => False
  | implementation b k, implementation b' k' => b.code < b'.code ∨ b = b' ∧ k.position < k'.position

theorem lt_or_eq_and_lt {b b' : Backing} {p p' : Nat} (hp : p < 32) (hp' : p' < 32)
    (h : 64 * b.code + p < 64 * b'.code + p') : b.code < b'.code ∨ b = b' ∧ p < p' := by
  by_cases hb : b.code < b'.code
  · exact Or.inl hb
  · have hcode : b.code = b'.code := by omega
    exact Or.inr ⟨Backing.code_injective hcode, by omega⟩

theorem precedes_of_rank_lt {i j : Key} (h : i.rank < j.rank) : i.Precedes j := by
  have hcode : ∀ b : Backing, 0 < b.code ∧ b.code < 8 := fun b => by cases b <;> decide
  have hconverter : ∀ k : Converter, k.position < 32 := Family.position_lt
  have himplementation : ∀ k : Implementation, k.position < 32 := Family.position_lt
  cases i with
  | base b =>
    cases j with
    | base b' => exact h
    | converter b' k' => trivial
    | implementation b' k' => trivial
  | converter b k =>
    cases j with
    | base b' =>
      have hb := hcode b
      have hb' := hcode b'
      simp only [rank] at h
      omega
    | converter b' k' => exact lt_or_eq_and_lt (hconverter k) (hconverter k') h
    | implementation b' k' => trivial
  | implementation b k =>
    cases j with
    | base b' =>
      have hb' := hcode b'
      simp only [rank] at h
      omega
    | converter b' k' =>
      have hb' := hcode b'
      have hk' := hconverter k'
      simp only [rank] at h
      omega
    | implementation b' k' =>
      have h' : 64 * b.code + k.position < 64 * b'.code + k'.position := by
        simp only [rank] at h
        omega
      exact lt_or_eq_and_lt (himplementation k) (himplementation k') h'

end Key

namespace Catalog

/-! ### Entries -/

theorem lookup_eq_some {l : List (Key × Fragment)} (hl : Ordered l) {k : Key} {f : Fragment} :
    l.lookup k = some f ↔ (k, f) ∈ l := by
  induction l with
  | nil => simp
  | cons e l ih =>
    obtain ⟨j, g⟩ := e
    obtain ⟨hj, hl⟩ := List.pairwise_cons.1 hl
    rw [lookup_cons_eq, List.mem_cons]
    by_cases hk : k = j
    · subst hk
      have hother : (k, f) ∉ l := fun hm => absurd (hj _ hm) (Nat.lt_irrefl _)
      simp [hother, eq_comm]
    · simp [hk, ih hl]

/-- Catalogs with equal look-ups are equal. -/
theorem ext_lookup {c d : Catalog} (h : ∀ k, c.lookup k = d.lookup k) : c = d := by
  have hentries : c.entries = d.entries := by
    refine eq_of_ascending_of_mem c.ordered d.ordered fun e => ?_
    obtain ⟨k, f⟩ := e
    rw [← lookup_eq_some c.ordered, ← lookup_eq_some d.ordered]
    exact iff_of_eq (congrArg (· = some f) (h k))
  obtain ⟨l, hl⟩ := c
  obtain ⟨l', hl'⟩ := d
  cases hentries
  rfl

theorem mem_keys {c : Catalog} {k : Key} : k ∈ c.keys ↔ (c.lookup k).isSome = true := by
  rw [keys, List.mem_map, Option.isSome_iff_exists]
  constructor
  · rintro ⟨⟨_, f⟩, he, rfl⟩
    exact ⟨f, (lookup_eq_some c.ordered).2 he⟩
  · rintro ⟨f, hf⟩
    exact ⟨(k, f), (lookup_eq_some c.ordered).1 hf, rfl⟩

theorem keys_ascending (c : Catalog) : c.keys.Pairwise Key.Precedes :=
  List.pairwise_map.2 (c.ordered.imp Key.precedes_of_rank_lt)

/-! ### Copying -/

theorem lookup_extend (c d : Catalog) (k : Key) :
    (c.extend d).lookup k = (d.lookup k).or (c.lookup k) := by
  have hcopy : ∀ (l : List (Key × Fragment)) (c : Catalog), Ordered l →
      (l.foldl (fun c e => c.insert e.1 e.2) c).lookup k = (l.lookup k).or (c.lookup k) := by
    intro l
    induction l with
    | nil => exact fun c _ => rfl
    | cons e l ih =>
      intro c hordered
      obtain ⟨j, f⟩ := e
      obtain ⟨hj, hl⟩ := List.pairwise_cons.1 hordered
      rw [List.foldl_cons, ih _ hl, lookup_insert, lookup_cons_eq]
      by_cases hk : k = j
      · subst hk
        have hlast : l.lookup k = none := by
          rw [Option.eq_none_iff_forall_ne_some]
          intro g hg
          exact absurd (hj _ ((lookup_eq_some hl).1 hg)) (Nat.lt_irrefl _)
        rw [hlast, if_pos rfl, if_pos rfl]
        rfl
      · rw [if_neg hk, if_neg hk]
  exact hcopy d.entries c d.ordered

theorem extend_self (c : Catalog) : c.extend c = c := by
  apply ext_lookup
  intro k
  rw [lookup_extend, Option.or_self]

/-- Extends the catalog under the name `x` by the one under the name `y`. -/
def extendAt {N : Type} [DecidableEq N] (shelf : N → Catalog) (x y : N) : N → Catalog :=
  Function.update shelf x ((shelf x).extend (shelf y))

/-- Even a catalog that is extended by itself stays as it was. -/
theorem extendAt_source {N : Type} [DecidableEq N] (shelf : N → Catalog) (x y : N) :
    extendAt shelf x y y = shelf y := by
  rw [extendAt]
  by_cases hxy : y = x
  · rw [hxy, Function.update_self, extend_self]
  · rw [Function.update_of_ne hxy]

/-! ### Steps -/

inductive Step where
  | put (key : Key) (fragment : Fragment)
  | drop (key : Key)
  /-- Copy every fragment of the built-in catalog. -/
  | builtin
  /-- Copy every fragment of the catalog that these steps build. -/
  | extend (steps : List Step)

mutual

/-- The edit that a step makes. -/
def Step.edit : Step → Edit
  | .put key fragment => .put key fragment
  | .drop key => .drop key
  | .builtin => .builtin
  | .extend steps => .extend (build (edits steps))

def edits : List Step → List Edit
  | [] => []
  | s :: steps => s.edit :: edits steps

end

/-- The catalog that steps build. -/
def ofSteps (steps : List Step) : Catalog := build (edits steps)

/-- What a step makes of a key, if it affects it. -/
def Step.effect (k : Key) : Step → Option (Option Fragment)
  | put j fragment => if k = j then some (some fragment) else none
  | drop j => if k = j then some none else none
  | builtin => (Builtin.catalog.lookup k).map some
  | extend steps => ((ofSteps steps).lookup k).map some

/-- The last step that affects a key makes `f` of it. -/
inductive Decides (steps : List Step) (k : Key) : Option Fragment → Prop
  | untouched (h : ∀ s ∈ steps, s.effect k = none) : Decides steps k none
  | last {f : Option Fragment} (before after : List Step) (s : Step)
    (split : steps = before ++ s :: after) (here : s.effect k = some f)
    (later : ∀ s ∈ after, s.effect k = none) : Decides steps k f

theorem lookup_edit (c : Catalog) (s : Step) (k : Key) :
    (s.edit.apply c).lookup k = (s.effect k).getD (c.lookup k) := by
  cases s with
  | put j f =>
    rw [Step.edit, Edit.apply, lookup_insert, Step.effect]
    split <;> rfl
  | drop j =>
    rw [Step.edit, Edit.apply, lookup_erase, Step.effect]
    split <;> rfl
  | builtin =>
    rw [Step.edit, Edit.builtin, Edit.apply, lookup_extend, Step.effect]
    cases Builtin.catalog.lookup k <;> rfl
  | extend steps =>
    rw [Step.edit, Edit.apply, lookup_extend, Step.effect, ofSteps]
    cases (build (edits steps)).lookup k <;> rfl

theorem edits_eq_map (steps : List Step) : edits steps = steps.map Step.edit := by
  induction steps with
  | nil => rw [edits, List.map_nil]
  | cons s steps ih => rw [edits, List.map_cons, ih]

theorem ofSteps_append (steps : List Step) (s : Step) :
    ofSteps (steps ++ [s]) = s.edit.apply (ofSteps steps) := by
  rw [ofSteps, ofSteps, edits_eq_map, edits_eq_map, List.map_append, build, List.foldl_append]
  rfl

theorem decides_lookup (steps : List Step) (k : Key) :
    Decides steps k ((ofSteps steps).lookup k) := by
  induction steps using List.reverseRecOn with
  | nil => exact .untouched (by simp)
  | append_singleton steps s ih =>
    rw [ofSteps_append, lookup_edit]
    -- the last step decides if it affects the key, and otherwise whatever decided before it
    cases hs : s.effect k with
    | some f => exact .last steps [] s rfl hs (by simp)
    | none =>
      rw [Option.getD_none]
      generalize (ofSteps steps).lookup k = f at ih
      cases ih with
      | untouched h =>
        refine .untouched fun s' hs' => ?_
        rcases List.mem_append.1 hs' with hs' | hs'
        · exact h s' hs'
        · rw [List.mem_singleton.1 hs', hs]
      | last before after s' split here later =>
        refine .last before (after ++ [s]) s' ?_ here fun s'' hs'' => ?_
        · rw [split, List.append_assoc, List.cons_append]
        · rcases List.mem_append.1 hs'' with hs'' | hs''
          · exact later s'' hs''
          · rw [List.mem_singleton.1 hs'', hs]

/-- A built catalog is a finite map. For each key the last step that affects it decides, at any
depth of catalogs that are copied; the keys are those with a fragment, in order and each once; and
where catalogs stand side by side, extending one by another leaves the other as it was. -/
theorem ofSteps_decided (steps : List Step) :
    (∀ k, Decides steps k ((ofSteps steps).lookup k)) ∧
    (∀ k, k ∈ (ofSteps steps).keys ↔ ((ofSteps steps).lookup k).isSome = true) ∧
    (ofSteps steps).keys.Pairwise Key.Precedes ∧
    (ofSteps steps).size = (ofSteps steps).keys.length ∧
    ((ofSteps steps).isEmpty = true ↔ (ofSteps steps).size = 0) ∧
    ∀ (N : Type) [DecidableEq N] (shelf : N → Catalog) (x y : N), extendAt shelf x y y = shelf y := by
  refine ⟨decides_lookup steps, fun k => mem_keys, keys_ascending _, ?_, ?_, ?_⟩
  · rw [size, keys, List.length_map]
  · rw [isEmpty, size, List.isEmpty_iff, List.length_eq_zero_iff]
  · intro N _ shelf x y
    exact extendAt_source shelf x y

end Catalog
end TypedId
