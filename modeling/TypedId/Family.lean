import TypedId.Text.Search
import TypedId.Ascending

/-!
# Families of capabilities

A family is a finite type of kinds in canonical order, each of which owns one bit of the family's
raw 32-bit word. Bit zero belongs to no kind: alone it says that the field is deferred.
-/

namespace TypedId

/-- The raw form of a field that holds a set of kinds. -/
abbrev Word := BitVec 32

class Family (K : Type) where
  /-- Every kind once, in canonical order. -/
  all : List K
  /-- The position of the kind's bit. -/
  position : K → Nat
  /-- The name in requests, settings and reports. -/
  name : K → String
  /-- The name as one capitalised word. -/
  label : K → String
  /-- The field that holds sets of this family. -/
  field : String
  mem_all : ∀ k, k ∈ all
  ascending : all.Pairwise fun a b => position a < position b
  position_pos : ∀ k, 0 < position k
  position_lt : ∀ k, position k < 32
  name_injective : ∀ a b, name a = name b → a = b

namespace Family

variable {K : Type} [Family K]

/-- The word with just the bit of `k`. -/
def bit (k : K) : Word := BitVec.twoPow 32 (position k)

/-- The word with the bit of every kind. -/
def known (K : Type) [Family K] : Word := (all : List K).foldr (fun k w => bit k ||| w) 0

/-- The kind of a given name. -/
def ofName? (s : Text) : Option K := all.find? fun k => (name k).toList = s

/-- Kinds with one bit are one kind. -/
theorem position_injective {a b : K} (h : position a = position b) : a = b :=
  eq_of_ascending ascending (mem_all a) (mem_all b) h

theorem getLsbD_bit (k : K) (i : Nat) : (bit k).getLsbD i = decide (i = position k) := by
  have := position_lt k
  simp only [bit, BitVec.getLsbD_twoPow]
  by_cases h : position k = i
  · simp [h ▸ this, h]
  · simp [h, Ne.symm h]

/-- A bit is known exactly when some kind owns it. -/
theorem getLsbD_known (i : Nat) :
    (known K).getLsbD i = true ↔ ∃ k : K, position k = i := by
  have key : ∀ l : List K,
      (l.foldr (fun k w => bit k ||| w) 0).getLsbD i = true ↔ ∃ k ∈ l, position k = i := by
    intro l
    induction l with
    | nil => simp
    | cons k l ih =>
      rw [List.foldr_cons, BitVec.getLsbD_or, getLsbD_bit, Bool.or_eq_true, ih, decide_eq_true_eq]
      simp only [List.mem_cons, exists_eq_or_imp, eq_comm (a := i)]
  rw [known, key]
  exact ⟨fun ⟨k, _, h⟩ => ⟨k, h⟩, fun ⟨k, h⟩ => ⟨k, mem_all k, h⟩⟩

theorem ofName?_eq_some {s : Text} {k : K} : ofName? s = some k ↔ (name k).toList = s := by
  constructor
  · intro h
    simpa using List.find?_some h
  · intro h
    cases hf : (ofName? s : Option K) with
    | none => exact absurd h (by simpa using List.find?_eq_none.1 hf k (mem_all k))
    | some j =>
      have hj : (name j).toList = s := by simpa using List.find?_some hf
      have hname : name j = name k := String.toList_inj.1 (hj.trans h.symm)
      rw [name_injective j k hname]

end Family
end TypedId
