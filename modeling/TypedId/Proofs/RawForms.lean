import Mathlib.Tactic.IntervalCases
import TypedId.Proofs.SetPrograms

/-!
# Raw forms

A request's settings as three raw numbers, and back. Every setting has one raw form, nothing but raw
forms is read, and the first number that is none decides how reading fails.
-/

namespace TypedId

namespace Backing

/-- The raw value of a setting; zero defers. -/
def raw : Setting Backing → Int
  | .deferred => 0
  | .explicit b => b.code

theorem decode_eq_ok {n : Int} {s : Setting Backing} : decode n = .ok s ↔ n = raw s := by
  constructor
  · intro h
    rw [decode] at h
    split at h
    · next hzero =>
      cases h
      exact hzero
    · split at h
      · next b hb =>
        cases h
        have hcode := List.find?_some hb
        exact (of_decide_eq_true hcode).symm
      · cases h
  · rintro rfl
    cases s with
    | deferred => rfl
    | explicit b => cases b <;> rfl

theorem exists_decode_iff {n : Int} : (∃ s, decode n = .ok s) ↔ 0 ≤ n ∧ n ≤ 7 := by
  constructor
  · rintro ⟨s, h⟩
    rw [decode_eq_ok.1 h]
    cases s with
    | deferred => exact ⟨le_refl 0, by decide⟩
    | explicit b =>
      have hcode := code_lt b
      constructor
      · exact Int.natCast_nonneg b.code
      · exact Int.ofNat_le.2 (Nat.le_of_lt_succ hcode)
  · rintro ⟨hlow, hhigh⟩
    interval_cases n
    · exact ⟨_, rfl⟩
    all_goals exact ⟨.explicit _, rfl⟩

theorem decode_eq_error {n m : Int} : decode n = .error m ↔ ¬ (0 ≤ n ∧ n ≤ 7) ∧ m = n := by
  rw [← exists_decode_iff]
  cases h : decode n with
  | ok s => simp
  | error e =>
    have he : e = n := by
      rw [decode] at h
      split at h
      · cases h
      · split at h
        · cases h
        · cases h
          rfl
    simp [he, eq_comm]

end Backing

namespace KindSet

open Family

variable {K : Type} [Family K]

/-- The raw field of a setting; bit zero alone defers. -/
def raw : Setting (KindSet K) → Word
  | .deferred => 1#32
  | .explicit s => s.bits

/-- A raw field that stands for a setting: bit zero alone, or no bits but those of kinds. -/
def Meaningful (K : Type) [Family K] (w : Word) : Prop :=
  w = 1#32 ∨ ∀ i, w.getLsbD i = true → ∃ k : K, position k = i

/-- What is reported of a raw field that stands for nothing: the whole field where bit zero is set
among others, and otherwise just the bits of no kind. -/
def Offending (K : Type) [Family K] (w bits : Word) : Prop :=
  (w.getLsbD 0 = true ∧ bits = w) ∨
  (w.getLsbD 0 = false ∧
    ∀ i, bits.getLsbD i = true ↔ w.getLsbD i = true ∧ ¬ ∃ k : K, position k = i)

theorem decode_eq_ok {w : Word} {s : Setting (KindSet K)} : decode w = .ok s ↔ w = raw s := by
  constructor
  · intro h
    rw [decode] at h
    split at h
    · next hw =>
      cases h
      exact hw
    · split at h
      · cases h
      · split at h
        · cases h
          rfl
        · cases h
  · rintro rfl
    cases s with
    | deferred => rw [decode, if_pos (by rfl)]
    | explicit s => exact decode_of_known s.known

theorem exists_decode_iff {w : Word} :
    (∃ s : Setting (KindSet K), decode w = .ok s) ↔ Meaningful K w := by
  simp only [decode_eq_ok]
  constructor
  · rintro ⟨s, rfl⟩
    cases s with
    | deferred => exact Or.inl rfl
    | explicit s => exact Or.inr ((known_iff s.bits).1 s.known)
  · rintro (rfl | h)
    · exact ⟨.deferred, rfl⟩
    · exact ⟨.explicit ⟨w, (known_iff w).2 h⟩, rfl⟩

theorem and_deferral_ne_zero {w : Word} (h : w.getLsbD 0 = true) : w &&& deferral ≠ 0#32 := by
  intro hzero
  have hbit : (w &&& deferral).getLsbD 0 = (0#32).getLsbD 0 := by rw [hzero]
  rw [BitVec.getLsbD_and, h] at hbit
  exact absurd hbit (by decide)

/-- A bit is left of a field without its known bits exactly when no kind owns it. -/
theorem getLsbD_unknown (w : Word) (i : Nat) :
    (w &&& ~~~ Family.known K).getLsbD i = true ↔
      w.getLsbD i = true ∧ ¬ ∃ k : K, position k = i := by
  rw [← getLsbD_known (K := K), BitVec.getLsbD_and, BitVec.getLsbD_not]
  constructor
  · intro h
    simp only [Bool.and_eq_true, Bool.not_eq_true'] at h
    exact ⟨h.1, by simp [h.2.2]⟩
  · rintro ⟨hw, hknown⟩
    have hlt := BitVec.lt_of_getLsbD hw
    rw [hw, Bool.eq_false_of_not_eq_true hknown]
    simpa using hlt

theorem eq_of_unknown {w bits : Word}
    (h : ∀ i, bits.getLsbD i = true ↔ w.getLsbD i = true ∧ ¬ ∃ k : K, position k = i) :
    bits = w &&& ~~~ Family.known K := by
  apply BitVec.eq_of_getLsbD_eq
  intro i _
  rw [Bool.eq_iff_iff, h, getLsbD_unknown]

theorem decode_eq_error {w bits : Word} :
    (decode w : Except Word (Setting (KindSet K))) = .error bits ↔
      ¬ Meaningful K w ∧ Offending K w bits := by
  by_cases hw : Meaningful K w
  · obtain ⟨s, hs⟩ := exists_decode_iff.2 hw
    simp [hs, hw]
  · have hdeferral : w ≠ deferral := fun h => hw (Or.inl h)
    have hknown : ¬ w &&& ~~~ Family.known K = 0#32 := fun h => hw (Or.inr ((known_iff w).1 h))
    rw [decode, if_neg hdeferral]
    cases hzero : w.getLsbD 0 with
    | true =>
      rw [if_pos (and_deferral_ne_zero hzero)]
      simp only [Except.error.injEq, Offending, hw, hzero, Bool.true_eq_false, false_and, or_false,
        true_and, not_false_eq_true]
      exact eq_comm
    | false =>
      rw [if_neg (by simpa using and_deferral_eq_zero hzero), dif_neg hknown]
      simp only [Except.error.injEq, Offending, hw, hzero, Bool.false_eq_true, false_and, false_or,
        true_and, not_false_eq_true]
      constructor
      · rintro rfl
        exact getLsbD_unknown w
      · exact fun h => (eq_of_unknown h).symm

end KindSet

namespace Request

open KindSet

/-- The raw numbers of a request's settings. -/
def raw (r : Request) : Int × Word × Word :=
  (Backing.raw r.backing, KindSet.raw r.converters, KindSet.raw r.implementations)

/-- How the raw numbers of a type are refused: the first of them that stands for nothing decides. -/
inductive Refused (name : Text) (backing : Int) (converters implementations : Word) : Failure → Prop
  | backing : ¬ (0 ≤ backing ∧ backing ≤ 7) →
      Refused name backing converters implementations
        (.configuration name (.unknownBacking backing))
  | converters {bits : Word} : (0 ≤ backing ∧ backing ≤ 7) → ¬ Meaningful Converter converters →
      Offending Converter converters bits →
      Refused name backing converters implementations (.unknownBits name "converters" bits)
  | implementations {bits : Word} : (0 ≤ backing ∧ backing ≤ 7) →
      Meaningful Converter converters → ¬ Meaningful Implementation implementations →
      Offending Implementation implementations bits →
      Refused name backing converters implementations (.unknownBits name "implementations" bits)

theorem decodeSet_eq_ok {K : Type} [Family K] {name : Text} {w : Word} {s : Setting (KindSet K)} :
    decodeSet K name w = .ok s ↔ w = KindSet.raw s := by
  rw [decodeSet, mapError_eq_ok, KindSet.decode_eq_ok]

theorem decodeSet_eq_error {K : Type} [Family K] {name : Text} {w : Word} {e : Failure} :
    decodeSet K name w = .error e ↔
      ∃ bits, ¬ Meaningful K w ∧ Offending K w bits ∧
        e = .unknownBits name (Family.field K) bits := by
  rw [decodeSet, mapError_eq_error]
  simp only [KindSet.decode_eq_error, and_assoc, eq_comm (b := e)]

variable {name : Text} {backing : Int} {converters implementations : Word}

/-- What is read has the raw numbers that it was read from. -/
theorem ofRaw_eq_ok {r : Request} :
    ofRaw name backing converters implementations = .ok r ↔
      r.name = name ∧ r.scope = none ∧ r.raw = (backing, converters, implementations) := by
  simp only [ofRaw, bind_eq_ok, mapError_eq_ok, Backing.decode_eq_ok, decodeSet_eq_ok]
  constructor
  · rintro ⟨b, rfl, c, rfl, i, rfl, h⟩
    cases h
    exact ⟨rfl, rfl, rfl⟩
  · rintro ⟨rfl, hscope, hraw⟩
    cases hraw
    refine ⟨_, rfl, _, rfl, _, rfl, ?_⟩
    rw [← hscope]
    rfl

theorem exists_ofRaw_iff :
    (∃ r, ofRaw name backing converters implementations = .ok r) ↔
      (0 ≤ backing ∧ backing ≤ 7) ∧ Meaningful Converter converters ∧
        Meaningful Implementation implementations := by
  rw [← Backing.exists_decode_iff, ← exists_decode_iff, ← exists_decode_iff]
  simp only [ofRaw_eq_ok, Backing.decode_eq_ok, KindSet.decode_eq_ok]
  constructor
  · rintro ⟨r, -, -, hraw⟩
    cases hraw
    exact ⟨⟨_, rfl⟩, ⟨_, rfl⟩, ⟨_, rfl⟩⟩
  · rintro ⟨⟨b, rfl⟩, ⟨c, rfl⟩, ⟨i, rfl⟩⟩
    exact ⟨⟨name, none, b, c, i⟩, rfl, rfl, rfl⟩

theorem ofRaw_eq_error {e : Failure} :
    ofRaw name backing converters implementations = .error e ↔
      Refused name backing converters implementations e := by
  simp only [ofRaw, bind_eq_error, mapError_eq_error, Backing.decode_eq_error, mapError_eq_ok,
    decodeSet_eq_error]
  constructor
  · rintro (⟨n, ⟨hbacking, rfl⟩, rfl⟩ | ⟨b, hb, h⟩)
    · exact .backing hbacking
    · have hbacking := Backing.exists_decode_iff.1 ⟨b, hb⟩
      rcases h with ⟨bits, hc, hbits, rfl⟩ | ⟨c, hc, h⟩
      · exact .converters hbacking hc hbits
      · have hconverters := exists_decode_iff.1 ⟨c, KindSet.decode_eq_ok.2 (decodeSet_eq_ok.1 hc)⟩
        rcases h with ⟨bits, hi, hbits, rfl⟩ | ⟨i, -, h⟩
        · exact .implementations hbacking hconverters hi hbits
        · cases h
  · intro h
    cases h with
    | backing hbacking => exact Or.inl ⟨backing, ⟨hbacking, rfl⟩, rfl⟩
    | converters hbacking hc hbits =>
      obtain ⟨b, hb⟩ := Backing.exists_decode_iff.2 hbacking
      exact Or.inr ⟨b, hb, Or.inl ⟨_, hc, hbits, rfl⟩⟩
    | implementations hbacking hc hi hbits =>
      obtain ⟨b, hb⟩ := Backing.exists_decode_iff.2 hbacking
      obtain ⟨c, hc⟩ := exists_decode_iff.2 hc
      refine Or.inr ⟨b, hb, Or.inr ⟨c, ?_, Or.inl ⟨_, hi, hbits, rfl⟩⟩⟩
      exact decodeSet_eq_ok.2 (KindSet.decode_eq_ok.1 hc)

/-- Raw numbers are read exactly when each of them stands for a setting. Nothing is lost, since what
is read has the same raw numbers again; nothing is out of reach, since any three settings are read
from one row of raw numbers alone; and a refusal is about the first number that stands for nothing. -/
theorem ofRaw_exact (name : Text) (backing : Int) (converters implementations : Word) :
    ((∃ r, ofRaw name backing converters implementations = .ok r) ↔
      (0 ≤ backing ∧ backing ≤ 7) ∧ Meaningful Converter converters ∧
        Meaningful Implementation implementations) ∧
    (∀ r, ofRaw name backing converters implementations = .ok r ↔
      r.name = name ∧ r.scope = none ∧ r.raw = (backing, converters, implementations)) ∧
    (∀ e, ofRaw name backing converters implementations = .error e ↔
      Refused name backing converters implementations e) ∧
    ∀ b c i, ∃! numbers : Int × Word × Word,
      ofRaw name numbers.1 numbers.2.1 numbers.2.2 =
        .ok { name := name, backing := b, converters := c, implementations := i } := by
  refine ⟨exists_ofRaw_iff, fun r => ofRaw_eq_ok, fun e => ofRaw_eq_error, fun b c i => ?_⟩
  refine ⟨(Backing.raw b, KindSet.raw c, KindSet.raw i), ofRaw_eq_ok.2 ⟨rfl, rfl, rfl⟩, ?_⟩
  intro numbers h
  exact (ofRaw_eq_ok.1 h).2.2.symm

-- bit zero beside another bit: the whole field is reported
example : ofRaw "OrderId".toList 2 3#32 1#32 =
    .error (.unknownBits "OrderId".toList "converters" 3#32) := by decide

end Request
end TypedId
