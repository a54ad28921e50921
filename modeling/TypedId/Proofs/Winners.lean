import Mathlib.Data.List.Induction
import TypedId.Settings.Layers

/-!
# Winning layers

Of the layers that settings are gathered from one wins for each field, and the gathered settings
hold its value there.
-/

namespace TypedId

namespace Value

/-- A value without what a table holds. -/
def outline : Value → Value
  | table _ => table []
  | v => v

theorem outline_merge (p : Precedence) (a b : Value) :
    (merge p a b).outline = (match p with | .later => b | .earlier => a).outline := by
  cases a <;> cases b <;> cases p <;> rfl

theorem lookup_mergeEntries (p : Precedence) (l r : List (Text × Value)) (key : Text) :
    (mergeEntries p l r).lookup key =
      (l.lookup key).map fun a => (r.lookup key).elim a (merge p a) := by
  induction l with
  | nil => rfl
  | cons e l ih =>
    obtain ⟨i, a⟩ := e
    rw [mergeEntries, lookup_cons_eq]
    cases hr : r.lookup i with
    | none =>
      by_cases hk : key = i <;> simp [lookup_cons_eq, hk, ih, hr]
    | some b =>
      by_cases hk : key = i <;> simp [lookup_cons_eq, hk, ih, hr]

/-- Of the entries of two tables the later or the earlier ones win, up to what tables hold. -/
theorem lookup_merge (p : Precedence) (l r : List (Text × Value)) : ∃ entries,
    merge p (table l) (table r) = table entries ∧ ∀ key,
      (entries.lookup key).map outline =
        (match p with
          | .later => (r.lookup key).or (l.lookup key)
          | .earlier => (l.lookup key).or (r.lookup key)).map outline := by
  refine ⟨_, rfl, fun key => ?_⟩
  rw [List.lookup_append, lookup_mergeEntries, lookup_filter fun k => (l.lookup k).isNone]
  cases hl : l.lookup key with
  | none => cases p <;> simp
  | some a =>
    cases hr : r.lookup key with
    | none => cases p <;> simp
    -- two tables are united, so of the winner only the outline is sure
    | some b => cases p <;> simp [outline_merge]

end Value

namespace Settings

open Value

namespace Layer

/-- A layer that can be read. -/
def Readable (l : Layer) : Prop := ∃ entries, l.content = .ok entries

/-- What a layer says about a field. -/
def value? (l : Layer) (field : String) : Option Value := l.entries.lookup field.toList

theorem failure?_eq_none_iff {l : Layer} : l.failure? = none ↔ l.Readable := by
  rw [failure?, Readable]
  cases l.content <;> simp

end Layer

/-- What variables say is a table: a variable's name is a path of at least one key. -/
theorem Environment.read_eq_table (vars : List (Text × Text)) :
    ∃ entries, Environment.read vars = table entries := by
  rw [Environment.read]
  refine List.foldlRecOn (motive := fun done => ∃ entries, done = table entries) vars _ ⟨[], rfl⟩ ?_
  intro done hdone v _
  obtain ⟨entries, htable⟩ := hdone
  rw [htable]
  cases hpath : Environment.path? v.1 with
  | none => exact ⟨entries, rfl⟩
  | some path =>
    cases path with
    | cons key path => exact ⟨_, rfl⟩
    | nil =>
      rw [Environment.path?] at hpath
      simp [List.splitOn_ne_nil] at hpath

/-- The value that wins for a field: of the layers that replace the last one that names the field
decides, and where there is none the first layer at all that names it. -/
def winner? (layers : List Layer) (field : String) : Option Value :=
  ((layers.filter (·.precedence = .later)).reverse.findSome? (·.value? field)).or
    (layers.findSome? (·.value? field))

/-- A layer that replaces decides what it names; any other one fills what none before it named. -/
theorem winner?_append (layers : List Layer) (l : Layer) (field : String) :
    winner? (layers ++ [l]) field =
      match l.precedence with
      | .later => (l.value? field).or (winner? layers field)
      | .earlier => (winner? layers field).or (l.value? field) := by
  rw [winner?, winner?, List.findSome?_append, List.filter_append]
  cases hp : l.precedence with
  | later =>
    cases hl : l.value? field with
    | none => simp [hp, hl]
    | some v => simp [hp, hl]
  | earlier => simp [hp, Option.or_assoc]

/-- Layers on top of each other, the lowest first. -/
def stack (layers : List Layer) : Value :=
  layers.foldl (fun below l => below.merge l.precedence (.table l.entries)) (.table [])

theorem stack_append (layers : List Layer) (l : Layer) :
    stack (layers ++ [l]) = (stack layers).merge l.precedence (.table l.entries) := by
  rw [stack, List.foldl_append]
  rfl

/-- A field of the stack is the value that wins for it. -/
theorem find?_stack (layers : List Layer) (field : String) :
    (find? (stack layers) field).map outline = (winner? layers field).map outline := by
  have hstack : ∃ entries, stack layers = .table entries ∧
      (entries.lookup field.toList).map outline = (winner? layers field).map outline := by
    -- from the last layer down: a layer meets what all layers below it left
    induction layers using List.reverseRecOn with
    | nil => exact ⟨[], rfl, rfl⟩
    | append_singleton layers l ih =>
      obtain ⟨below, hbelow, hfield⟩ := ih
      obtain ⟨entries, hentries, hmerged⟩ := lookup_merge l.precedence below l.entries
      refine ⟨entries, by rw [stack_append, hbelow, hentries], ?_⟩
      rw [hmerged, winner?_append]
      cases l.precedence with
      | later => rw [Option.map_or, Option.map_or, hfield, Layer.value?]
      | earlier => rw [Option.map_or, Option.map_or, hfield, Layer.value?]
  obtain ⟨entries, hentries, hfield⟩ := hstack
  rw [hentries]
  exact hfield

theorem gather_eq (layers : List Layer) :
    gather layers =
      match layers.filterMap Layer.failure? with
      | [cause] => .error (.gathering 1 [] cause)
      | cause :: _ => .error (.gathering 2 [] cause)
      | [] => .ok (stack layers) := rfl

theorem gather_of_readable {layers : List Layer} (h : ∀ l ∈ layers, l.Readable) :
    gather layers = .ok (stack layers) := by
  have hnone : layers.filterMap Layer.failure? = [] := by
    rw [List.filterMap_eq_nil_iff]
    intro l hl
    exact Layer.failure?_eq_none_iff.2 (h l hl)
  rw [gather_eq, hnone]

/-- Where a layer cannot be read, the lowest such layer is reported. -/
theorem gather_of_unreadable {layers : List Layer} {cause : GatherCause} {causes : List GatherCause}
    (h : layers.filterMap Layer.failure? = cause :: causes) :
    ∃ count, gather layers = .error (.gathering count [] cause) := by
  rw [gather_eq, h]
  cases causes with
  | nil => exact ⟨1, rfl⟩
  | cons _ _ => exact ⟨2, rfl⟩

end Settings

end TypedId
