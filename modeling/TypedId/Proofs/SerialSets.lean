import Mathlib.Data.Set.Basic
import TypedId.Defaults.Serial
import TypedId.Proofs.Outcomes

/-!
# Serialised sets of kinds

What a value must be to be read as a kind or as a set of kinds. Of a list only the kinds matter that
its items stand for, not their order or how often they come.
-/

namespace TypedId

namespace Serial

open Family

variable {K : Type} [Family K]

/-- A value that is written for a kind: its name, alone or as the only key of a table. -/
inductive Spells : Value → K → Prop
  | name (k : K) : Spells (.text (name k).toList) k
  | entry (k : K) : Spells (.table [((name k).toList, .null)]) k

/-- A value that is written for a name: the name alone, or a table with it as the only key. -/
inductive Written (name : Text) : Value → Prop
  | alone : Written name (.text name)
  | entry : Written name (.table [(name, .null)])

theorem spells_iff {v : Value} {k : K} : Spells v k ↔ Written (name k).toList v := by
  constructor
  · intro h
    cases h with
    | name => exact .alone
    | entry => exact .entry
  · intro h
    cases h with
    | alone => exact .name k
    | entry => exact .entry k

section

variable {α : Type} {ofName? : Text → Option α} {name : α → String}

theorem readVariant_table_eq_ok (hof : ∀ s a, ofName? s = some a ↔ (name a).toList = s)
    {known : List String} {entries : List (Text × Value)} {a : α} :
    readVariant ofName? known (.table entries) = .ok a ↔ entries = [((name a).toList, .null)] := by
  cases entries with
  | nil => simp [readVariant]
  | cons e rest =>
    cases rest with
    | cons e' rest => simp [readVariant]
    | nil =>
      obtain ⟨s, content⟩ := e
      have hentry : [(s, content)] = [((name a).toList, Value.null)] ↔
          ofName? s = some a ∧ content = .null := by
        rw [hof]
        simp [eq_comm]
      rw [hentry]
      cases hs : ofName? s with
      | none => simp [readVariant, hs]
      | some j => cases content <;> simp [readVariant, hs, mismatch]

/-- What is read is what the value is written for. -/
theorem readVariant_eq_ok (hof : ∀ s a, ofName? s = some a ↔ (name a).toList = s)
    {known : List String} {v : Value} {a : α} :
    readVariant ofName? known v = .ok a ↔ Written (name a).toList v := by
  constructor
  · intro h
    cases v with
    | text s =>
      rw [readVariant] at h
      cases hs : ofName? s with
      | none => simp [hs] at h
      | some j =>
        simp only [hs, Except.ok.injEq] at h
        rw [← (hof s a).1 (h ▸ hs)]
        exact .alone
    | table entries =>
      rw [(readVariant_table_eq_ok hof).1 h]
      exact .entry
    | _ => cases h
  · intro h
    cases h with
    | alone => rw [readVariant, (hof _ a).2 rfl]
    | entry => exact (readVariant_table_eq_ok hof).2 rfl

end

theorem readKind_eq_ok {v : Value} {k : K} : readKind K v = .ok k ↔ Spells v k := by
  rw [readKind, spells_iff]
  exact readVariant_eq_ok fun _ _ => ofName?_eq_some

theorem readSet_eq_ok {v : Value} {s : KindSet K} :
    readSet K v = .ok s ↔
      ∃ items kinds, v = .list items ∧ List.Forall₂ Spells items kinds ∧ s = .ofList kinds := by
  cases v with
  | list items =>
    rw [readSet, map_eq_ok]
    simp only [mapM_eq_ok, readKind_eq_ok]
    constructor
    · intro ⟨kinds, hkinds, hs⟩
      exact ⟨items, kinds, rfl, hkinds, hs.symm⟩
    · intro ⟨_, kinds, hitems, hkinds, hs⟩
      cases hitems
      exact ⟨kinds, hkinds, hs.symm⟩
  | _ => simp [readSet, mismatch]

theorem Spells.unique {v : Value} {j k : K} (hj : Spells v j) (hk : Spells v k) : j = k := by
  have h := (readKind_eq_ok.2 hj).symm.trans (readKind_eq_ok.2 hk)
  exact Except.ok.inj h

/-- A value that lists kinds and nothing else. -/
def Lists (K : Type) [Family K] (v : Value) : Prop :=
  ∃ items, v = .list items ∧ ∀ item ∈ items, ∃ k : K, Spells item k

/-- The kinds that a value lists. -/
def listed (K : Type) [Family K] (v : Value) : Set K :=
  {k | ∃ items, v = .list items ∧ ∃ item ∈ items, Spells item k}

theorem exists_spelled_iff {items : List Value} :
    (∃ kinds : List K, List.Forall₂ Spells items kinds) ↔
      ∀ item ∈ items, ∃ k : K, Spells item k := by
  induction items with
  | nil => simp
  | cons item items ih =>
    rw [List.forall_mem_cons, ← ih]
    constructor
    · rintro ⟨_, h⟩
      cases h with
      | cons hk hkinds => exact ⟨⟨_, hk⟩, _, hkinds⟩
    · rintro ⟨⟨k, hk⟩, kinds, hkinds⟩
      exact ⟨k :: kinds, .cons hk hkinds⟩

theorem mem_spelled {items : List Value} {kinds : List K} (h : List.Forall₂ Spells items kinds)
    (k : K) : k ∈ kinds ↔ ∃ item ∈ items, Spells item k := by
  induction h with
  | nil => simp
  | cons hj _ ih =>
    rw [List.mem_cons, List.exists_mem_cons_iff, ih]
    refine or_congr ?_ Iff.rfl
    constructor
    · rintro rfl
      exact hj
    · exact fun hk => hk.unique hj

theorem exists_readSet_iff {v : Value} : (∃ s : KindSet K, readSet K v = .ok s) ↔ Lists K v := by
  simp only [readSet_eq_ok]
  constructor
  · rintro ⟨_, items, kinds, hv, hkinds, -⟩
    exact ⟨items, hv, exists_spelled_iff.1 ⟨kinds, hkinds⟩⟩
  · rintro ⟨items, hv, hitems⟩
    obtain ⟨kinds, hkinds⟩ := exists_spelled_iff.2 hitems
    exact ⟨_, items, kinds, hv, hkinds, rfl⟩

theorem mem_of_readSet {v : Value} {s : KindSet K} (h : readSet K v = .ok s) (k : K) :
    k ∈ s ↔ k ∈ listed K v := by
  obtain ⟨items, kinds, rfl, hkinds, rfl⟩ := readSet_eq_ok.1 h
  rw [KindSet.mem_ofList, mem_spelled hkinds]
  simp [listed]

end Serial

end TypedId
