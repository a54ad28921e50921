import Mathlib.Logic.Function.Basic
import TypedId.KindSet.Operation
import TypedId.Proofs.SerialSets

/-!
# Programs over sets of kinds

A program works on sets that have names, with every way to make or change a set. Run beside it, the
same program on mathematical sets says what the members are; whatever can be asked of the words
follows from the members alone.
-/

namespace TypedId

namespace KindSet

open Family

variable {K : Type} [Family K]

/-! ### What can be asked of a set -/

/-- A set of kinds stands for a mathematical set, whatever it is asked. -/
structure Represents (s : KindSet K) (M : Set K) : Prop where
  /-- Every bit is that of a kind. -/
  known : ∀ i, s.bits.getLsbD i = true → ∃ k : K, position k = i
  bit_zero : s.bits.getLsbD 0 = false
  contains : ∀ k, s.contains k = true ↔ k ∈ M
  listed : ∀ k, k ∈ s.toList ↔ k ∈ M
  nodup : s.toList.Nodup
  canonical : s.toList.Sublist Family.all
  size : s.size = s.toList.length
  isEmpty : s.isEmpty = true ↔ s.toList = []
  decode : KindSet.decode s.bits = .ok (.explicit s)

theorem exists_of_getLsbD {s : KindSet K} {i : Nat} (h : s.bits.getLsbD i = true) :
    ∃ k ∈ s, position k = i := by
  obtain ⟨k, rfl⟩ := (known_iff s.bits).1 s.known i h
  exact ⟨k, mem_iff.2 h, rfl⟩

theorem getLsbD_zero (s : KindSet K) : s.bits.getLsbD 0 = false := by
  cases h : s.bits.getLsbD 0 with
  | false => rfl
  | true =>
    obtain ⟨k, -, hk⟩ := exists_of_getLsbD h
    exact absurd hk (Nat.ne_of_gt (position_pos k))

/-- The bits that are set are the positions of the members, in order. -/
theorem filter_range_eq (s : KindSet K) :
    (List.range 32).filter s.bits.getLsbD = s.toList.map position := by
  have hbits : ((List.range 32).filter s.bits.getLsbD).Pairwise fun i j => id i < id j :=
    List.pairwise_lt_range.filter _
  have hmembers : (s.toList.map position).Pairwise fun i j => id i < id j :=
    List.pairwise_map.2 (Family.ascending.filter _)
  apply eq_of_ascending_of_mem hbits hmembers
  intro i
  simp only [List.mem_filter, List.mem_range, List.mem_map, mem_toList]
  constructor
  · intro h
    exact exists_of_getLsbD h.2
  · rintro ⟨k, hk, rfl⟩
    exact ⟨position_lt k, mem_iff.1 hk⟩

theorem size_eq_length (s : KindSet K) : s.size = s.toList.length := by
  rw [size, List.countP_eq_length_filter, filter_range_eq, List.length_map]

theorem toList_eq_nil_iff {s : KindSet K} : s.toList = [] ↔ s.bits = 0#32 := by
  constructor
  · intro h
    have hempty : s = empty := ext_mem fun k => by
      rw [← mem_toList, h]
      simp
    rw [hempty]
    rfl
  · intro h
    have hempty : s = empty := ext_bits h
    rw [List.eq_nil_iff_forall_not_mem]
    intro k
    rw [mem_toList, hempty]
    exact not_mem_empty k

theorem and_deferral_eq_zero {raw : Word} (h : raw.getLsbD 0 = false) :
    raw &&& deferral = 0#32 := by
  apply BitVec.eq_of_getLsbD_eq
  intro i hi
  rw [deferral, BitVec.getLsbD_and, BitVec.getLsbD_one, BitVec.getLsbD_zero]
  by_cases hzero : i = 0
  · rw [hzero, h, Bool.false_and]
  · simp [hzero]

/-- A field without unknown bits is taken as it stands. -/
theorem decode_of_known {raw : Word} (h : raw &&& ~~~ Family.known K = 0#32) :
    decode raw = .ok (.explicit (⟨raw, h⟩ : KindSet K)) := by
  have hzero : raw.getLsbD 0 = false := getLsbD_zero (⟨raw, h⟩ : KindSet K)
  have hne : raw ≠ deferral := by
    rintro rfl
    exact absurd hzero (by decide)
  rw [decode, if_neg hne, if_neg (by simpa using and_deferral_eq_zero hzero), dif_pos h]

/-- A field with an unknown bit never gives a set. -/
theorem decode_ne_explicit {raw : Word} (h : raw &&& ~~~ Family.known K ≠ 0#32) (s : KindSet K) :
    decode raw ≠ .ok (.explicit s) := by
  rw [decode]
  split
  · simp
  · split
    · simp
    · simp

theorem represents_of_mem {s : KindSet K} {M : Set K} (h : ∀ k, k ∈ s ↔ k ∈ M) :
    Represents s M where
  known i hi := by
    obtain ⟨k, -, hk⟩ := exists_of_getLsbD hi
    exact ⟨k, hk⟩
  bit_zero := getLsbD_zero s
  contains k := contains_iff_mem.trans (h k)
  listed k := mem_toList.trans (h k)
  nodup := by
    have hascending : s.toList.Pairwise fun a b => position a < position b :=
      Family.ascending.filter _
    exact hascending.imp fun hlt e => absurd (e ▸ hlt) (Nat.lt_irrefl _)
  canonical := List.filter_sublist
  size := size_eq_length s
  isEmpty := by
    rw [toList_eq_nil_iff, isEmpty, decide_eq_true_eq]
  decode := decode_of_known s.known

/-! ### Programs -/

/-- A step of a program over sets that have names. -/
inductive Command (N K : Type) where
  /-- Change the set `x` in place. -/
  | change (x : N) (operation : Operation K)
  /-- Let `x` be `y` with one more kind. -/
  | copyWith (x y : N) (kind : K)
  /-- Let `x` be the union of `y` and `z`. -/
  | unite (x y z : N)
  /-- Let `x` be the set that a serialised value lists. A value that lists none changes nothing. -/
  | read (x : N) (value : Value)

variable {N : Type} [DecidableEq N]

def Command.apply (σ : N → KindSet K) : Command N K → N → KindSet K
  | change x operation => Function.update σ x (operation.apply (σ x))
  | copyWith x y kind => Function.update σ x ((σ y).insert kind)
  | unite x y z => Function.update σ x ((σ y).union (σ z))
  | read x value =>
    match Serial.readSet K value with
    | .ok s => Function.update σ x s
    | .error _ => σ

/-- The sets that a program leaves. Before it all of them are empty. -/
def execute (program : List (Command N K)) : N → KindSet K :=
  program.foldl Command.apply fun _ => empty

/-- What an operation makes of a mathematical set. -/
def Operation.meaning (M : Set K) : Operation K → Set K
  | clear => ∅
  | fill => Set.univ
  | collect kinds => {k | k ∈ kinds}
  | insert kind => {k | k ∈ M ∨ k = kind}
  | unite kinds => {k | k ∈ M ∨ k ∈ kinds}
  | decode raw =>
    if raw &&& ~~~ Family.known K = 0#32 then {k | raw.getLsbD (position k) = true} else M

open Classical in
/-- What a step makes of mathematical sets. -/
noncomputable def Command.meaning (M : N → Set K) : Command N K → N → Set K
  | change x operation => Function.update M x (operation.meaning (M x))
  | copyWith x y kind => Function.update M x {k | k ∈ M y ∨ k = kind}
  | unite x y z => Function.update M x (M y ∪ M z)
  | read x value => if Serial.Lists K value then Function.update M x (Serial.listed K value) else M

/-- What a program makes of empty mathematical sets. -/
noncomputable def meaning (program : List (Command N K)) : N → Set K :=
  program.foldl Command.meaning fun _ => ∅

/-- Sets of kinds and mathematical sets that have the same members under every name. -/
def Agree (σ : N → KindSet K) (M : N → Set K) : Prop := ∀ x k, k ∈ σ x ↔ k ∈ M x

theorem Agree.update {σ : N → KindSet K} {M : N → Set K} (h : Agree σ M) {s : KindSet K} {A : Set K}
    (hs : ∀ k, k ∈ s ↔ k ∈ A) (x : N) : Agree (Function.update σ x s) (Function.update M x A) := by
  intro y k
  by_cases hy : y = x
  · rw [hy, Function.update_self, Function.update_self]
    exact hs k
  · rw [Function.update_of_ne hy, Function.update_of_ne hy]
    exact h y k

theorem mem_apply {s : KindSet K} {M : Set K} (h : ∀ k, k ∈ s ↔ k ∈ M) (o : Operation K) (k : K) :
    k ∈ o.apply s ↔ k ∈ o.meaning M := by
  cases o with
  | clear => simp [Operation.apply, Operation.meaning]
  | fill => simp [Operation.apply, Operation.meaning]
  | collect kinds => simp [Operation.apply, Operation.meaning]
  | insert kind => simp [Operation.apply, Operation.meaning, h]
  | unite kinds => simp [Operation.apply, Operation.meaning, h]
  | decode raw =>
    by_cases hraw : raw &&& ~~~ Family.known K = 0#32
    · rw [Operation.apply, Operation.meaning, if_pos hraw, decode_of_known hraw]
      exact mem_iff
    · -- a field with a bit of no kind gives no set, so the one that is there stays
      rw [Operation.meaning, if_neg hraw, ← h k, Operation.apply]
      split
      · next t ht => exact absurd ht (decode_ne_explicit hraw t)
      · exact Iff.rfl

theorem agree_apply {σ : N → KindSet K} {M : N → Set K} (h : Agree σ M) (c : Command N K) :
    Agree (c.apply σ) (c.meaning M) := by
  cases c with
  | change x o => exact h.update (mem_apply (h x) o) x
  | copyWith x y kind =>
    refine h.update (fun k => ?_) x
    rw [mem_insert, h y k]
    exact Iff.rfl
  | unite x y z =>
    refine h.update (fun k => ?_) x
    rw [mem_union, h y k, h z k]
    exact Iff.rfl
  | read x v =>
    by_cases hv : Serial.Lists K v
    · obtain ⟨s, hs⟩ := Serial.exists_readSet_iff.2 hv
      rw [Command.meaning, if_pos hv, Command.apply, hs]
      exact h.update (Serial.mem_of_readSet hs) x
    · rw [Command.meaning, if_neg hv, Command.apply]
      split
      · next s hs => exact absurd (Serial.exists_readSet_iff.1 ⟨s, hs⟩) hv
      · exact h

/-- By induction on the program; one step keeps the agreement. -/
theorem agree_execute (program : List (Command N K)) :
    Agree (execute program) (meaning program) := by
  have hrun : ∀ (σ : N → KindSet K) (M : N → Set K), Agree σ M →
      Agree (program.foldl Command.apply σ) (program.foldl Command.meaning M) := by
    induction program with
    | nil => exact fun σ M h => h
    | cons c program ih => exact fun σ M h => ih _ _ (agree_apply h c)
  exact hrun _ _ fun x k => by simp

/-- Whatever a program made the sets of, they are its mathematical sets: by members, in what they
list, count and encode, and in which of them are equal. A copy with one more kind leaves the set
that was copied as it was. -/
theorem execute_represents (program : List (Command N K)) :
    (∀ x, Represents (execute program x) (meaning program x)) ∧
    (∀ (other : List (Command N K)) (x y : N),
      execute program x = execute other y ↔ meaning program x = meaning other y) ∧
    ∀ (x y : N) (kind : K), x ≠ y →
      execute (program ++ [.copyWith x y kind]) y = execute program y ∧
      Represents (execute (program ++ [.copyWith x y kind]) x)
        {k | k ∈ meaning program y ∨ k = kind} := by
  have hagree := fun program : List (Command N K) => agree_execute program
  refine ⟨fun x => represents_of_mem (hagree program x), ?_, ?_⟩
  · intro other x y
    constructor
    · intro h
      ext k
      rw [← hagree program x k, h, hagree other y k]
    · intro h
      apply ext_mem
      intro k
      rw [hagree program x k, h, hagree other y k]
  · intro x y kind hxy
    have hstep : execute (program ++ [.copyWith x y kind]) =
        Function.update (execute program) x ((execute program y).insert kind) := by
      rw [execute, List.foldl_append]
      rfl
    rw [hstep, Function.update_of_ne hxy.symm, Function.update_self]
    refine ⟨rfl, represents_of_mem fun k => ?_⟩
    rw [mem_insert, hagree program y k]
    exact Iff.rfl

/-- A list with a repetition, a copy with one more kind, and both of them united. -/
def copying : List (Command Nat Implementation) :=
  [.change 0 (.collect [.comparable, .equatable, .comparable]), .copyWith 1 0 .parsable, .unite 2 0 1]

theorem execute_copying :
    Represents (execute copying 2) (meaning copying 2) ∧
    (execute copying 2).toList = [.equatable, .comparable, .parsable] ∧
    (2 : Nat) ≠ 0 ∧
    execute (copying ++ [.copyWith 2 0 .formattable]) 0 = execute copying 0 ∧
    Represents (execute (copying ++ [.copyWith 2 0 .formattable]) 2)
      {k | k ∈ meaning copying 0 ∨ k = .formattable} := by
  have hne : (2 : Nat) ≠ 0 := by decide
  obtain ⟨hrepresents, -, hcopy⟩ := execute_represents copying
  exact ⟨hrepresents 2, by decide, hne, hcopy 2 0 .formattable hne⟩

end KindSet
end TypedId
