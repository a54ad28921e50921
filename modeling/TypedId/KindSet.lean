import TypedId.Family
import TypedId.Setting

/-!
# Sets of kinds

A set of kinds of one family, stored as the family's raw word. The word has no bit that belongs to
no kind, so sets with the same members are equal; the view of a set is membership.
-/

namespace TypedId

structure KindSet (K : Type) [Family K] where
  bits : Word
  /-- Every bit belongs to a kind. -/
  known : bits &&& ~~~ Family.known K = 0#32

namespace KindSet

open Family

variable {K : Type} [Family K]

theorem ext_bits {s t : KindSet K} (h : s.bits = t.bits) : s = t := by
  cases s
  cases t
  cases h
  rfl

instance : DecidableEq (KindSet K) := fun s t =>
  decidable_of_iff (s.bits = t.bits) ⟨ext_bits, congrArg bits⟩

def contains (s : KindSet K) (k : K) : Bool := s.bits &&& bit k ≠ 0#32

instance : Membership K (KindSet K) := ⟨fun s k => s.contains k = true⟩

instance (k : K) (s : KindSet K) : Decidable (k ∈ s) := inferInstanceAs (Decidable (_ = true))

/-- A word has known bits only when each of them is the bit of some kind. -/
theorem known_iff (w : Word) :
    w &&& ~~~ Family.known K = 0#32 ↔ ∀ i, w.getLsbD i = true → ∃ k : K, position k = i := by
  constructor
  · intro h i hi
    have hz := congrArg (·.getLsbD i) h
    have hlt := BitVec.lt_of_getLsbD hi
    rw [← getLsbD_known (K := K)]
    simpa [BitVec.getLsbD_and, BitVec.getLsbD_not, hi, hlt] using hz
  · intro h
    apply BitVec.eq_of_getLsbD_eq
    intro i hlt
    rw [BitVec.getLsbD_and, BitVec.getLsbD_not, BitVec.getLsbD_zero]
    cases hi : w.getLsbD i
    · simp
    · simp [hlt, (getLsbD_known (K := K) i).2 (h i hi)]

theorem known_or {v w : Word} (hv : v &&& ~~~ Family.known K = 0#32)
    (hw : w &&& ~~~ Family.known K = 0#32) : (v ||| w) &&& ~~~ Family.known K = 0#32 := by
  rw [known_iff] at *
  intro i hi
  rw [BitVec.getLsbD_or, Bool.or_eq_true] at hi
  exact hi.elim (hv i) (hw i)

theorem known_bit (k : K) : bit k &&& ~~~ Family.known K = 0#32 := by
  rw [known_iff]
  intro i hi
  exact ⟨k, by simpa [getLsbD_bit, eq_comm] using hi⟩

def empty : KindSet K := ⟨0#32, by simp⟩

instance : EmptyCollection (KindSet K) := ⟨empty⟩

def insert (s : KindSet K) (k : K) : KindSet K := ⟨s.bits ||| bit k, known_or s.known (known_bit k)⟩

def union (s t : KindSet K) : KindSet K := ⟨s.bits ||| t.bits, known_or s.known t.known⟩

def ofList (kinds : List K) : KindSet K := kinds.foldl insert empty

/-- The set of every kind. -/
def full : KindSet K := ofList Family.all

/-- The members in canonical order. -/
def toList (s : KindSet K) : List K := Family.all.filter s.contains

def isEmpty (s : KindSet K) : Bool := s.bits = 0#32

/-- The number of bits set in the word. -/
def size (s : KindSet K) : Nat := (List.range 32).countP s.bits.getLsbD

/-- The word that defers a field: bit zero alone. -/
def deferral : Word := 1#32

/-- Reads a raw field. Bit zero alone defers the field; with other bits the whole word is refused,
and without it the bits that belong to no kind are. -/
def decode (raw : Word) : Except Word (Setting (KindSet K)) :=
  if raw = deferral then .ok .deferred
  else if raw &&& deferral ≠ 0#32 then .error raw
  else if h : raw &&& ~~~ Family.known K = 0#32 then .ok (.explicit ⟨raw, h⟩)
  else .error (raw &&& ~~~ Family.known K)

/-- The members as capitalised words between braces. -/
def describe (s : KindSet K) : Text :=
  '\x7b' :: ", ".toList.intercalate (s.toList.map fun k => (label k).toList) ++ ['\x7d']

/-! ### Membership -/

theorem contains_eq (s : KindSet K) (k : K) : s.contains k = s.bits.getLsbD (position k) := by
  have hlt := position_lt k
  cases hb : s.bits.getLsbD (position k)
  · rw [contains, decide_eq_false_iff_not, ne_eq, Decidable.not_not]
    apply BitVec.eq_of_getLsbD_eq
    intro i _
    rw [BitVec.getLsbD_and, getLsbD_bit, BitVec.getLsbD_zero]
    by_cases hi : i = position k
    · simp [hi, hb]
    · simp [hi]
  · rw [contains, decide_eq_true_eq]
    intro hz
    have := congrArg (·.getLsbD (position k)) hz
    simp [BitVec.getLsbD_and, getLsbD_bit, hb] at this

theorem mem_iff {s : KindSet K} {k : K} : k ∈ s ↔ s.bits.getLsbD (position k) = true := by
  rw [← contains_eq]; rfl

@[simp] theorem contains_iff_mem {s : KindSet K} {k : K} : s.contains k = true ↔ k ∈ s := Iff.rfl

/-- Sets with the same members are equal. -/
theorem ext_mem {s t : KindSet K} (h : ∀ k, k ∈ s ↔ k ∈ t) : s = t := by
  apply ext_bits
  apply BitVec.eq_of_getLsbD_eq
  intro i _
  rw [Bool.eq_iff_iff]
  constructor
  · intro hi
    obtain ⟨k, rfl⟩ := (known_iff s.bits).1 s.known i hi
    exact mem_iff.1 ((h k).1 (mem_iff.2 hi))
  · intro hi
    obtain ⟨k, rfl⟩ := (known_iff t.bits).1 t.known i hi
    exact mem_iff.1 ((h k).2 (mem_iff.2 hi))

@[simp] theorem not_mem_empty (k : K) : k ∉ (empty : KindSet K) := by
  simp [mem_iff, empty]

@[simp] theorem mem_insert {s : KindSet K} {k j : K} : k ∈ s.insert j ↔ k ∈ s ∨ k = j := by
  rw [mem_iff, mem_iff, insert, BitVec.getLsbD_or, getLsbD_bit, Bool.or_eq_true, decide_eq_true_eq]
  exact or_congr Iff.rfl ⟨position_injective, congrArg _⟩

@[simp] theorem mem_union {s t : KindSet K} {k : K} : k ∈ s.union t ↔ k ∈ s ∨ k ∈ t := by
  simp [mem_iff, union, BitVec.getLsbD_or]

@[simp] theorem mem_ofList {kinds : List K} {k : K} : k ∈ ofList kinds ↔ k ∈ kinds := by
  have key : ∀ (l : List K) (s : KindSet K), k ∈ l.foldl insert s ↔ k ∈ s ∨ k ∈ l := by
    intro l
    induction l with
    | nil => simp
    | cons j l ih => intro s; simp [ih, or_assoc]
  simp [ofList, key]

@[simp] theorem mem_full (k : K) : k ∈ (full : KindSet K) := by simp [full, mem_all]

@[simp] theorem mem_toList {s : KindSet K} {k : K} : k ∈ s.toList ↔ k ∈ s := by
  simp [toList, mem_all]

end KindSet

end TypedId
