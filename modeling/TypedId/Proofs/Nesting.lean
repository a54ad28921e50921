import TypedId.Outline
import TypedId.Proofs.Lines

/-!
# Braces and angle brackets

What the outline counts as it reads: a balanced text leaves the depth of braces as it found it, so
the brace that closes the struct is the one after its balanced body; and an entry of the interface
list keeps its commas within angle brackets, so the list splits where it was joined.
-/

namespace TypedId.Outline

open Text

/-! ### Braces -/

/-- The depth of braces after a text that opens at a given depth; none if it closes more. -/
def depthAfter (depth : Nat) : Text → Option Nat
  | [] => some depth
  | c :: s =>
    if c = '\x7d' then if depth = 0 then none else depthAfter (depth - 1) s
    else if c = '\x7b' then depthAfter (depth + 1) s
    else depthAfter depth s

/-- Every brace has its partner. -/
def BraceBalanced (s : Text) : Prop := depthAfter 0 s = some 0

instance (s : Text) : Decidable (BraceBalanced s) := inferInstanceAs (Decidable (_ = _))

theorem depthAfter_close {depth : Nat} (h : depth ≠ 0) (s : Text) :
    depthAfter depth ('\x7d' :: s) = depthAfter (depth - 1) s := by
  rw [depthAfter, if_pos rfl, if_neg h]

theorem depthAfter_open (depth : Nat) (s : Text) :
    depthAfter depth ('\x7b' :: s) = depthAfter (depth + 1) s := by
  rw [depthAfter, if_neg (by decide), if_pos rfl]

theorem depthAfter_plain (depth : Nat) {c : Char} (hopen : c ≠ '\x7b') (hclose : c ≠ '\x7d')
    (s : Text) : depthAfter depth (c :: s) = depthAfter depth s := by
  rw [depthAfter, if_neg hclose, if_neg hopen]

theorem depthAfter_append (depth : Nat) (a b : Text) :
    depthAfter depth (a ++ b) = (depthAfter depth a).bind (depthAfter · b) := by
  induction a generalizing depth with
  | nil => rfl
  | cons c a ih =>
    rw [List.cons_append, depthAfter, depthAfter]
    split
    · split
      · rfl
      · exact ih _
    · split
      · exact ih _
      · exact ih _

theorem depthAfter_flatten (depth : Nat) (lines : List Text) :
    depthAfter depth lines.flatten = lines.foldlM depthAfter depth := by
  induction lines generalizing depth with
  | nil => rfl
  | cons s lines ih =>
    rw [List.flatten_cons, depthAfter_append, List.foldlM_cons]
    exact congrArg _ (funext ih)

theorem depthAfter_append_of_avoids {a : Text} (h : Avoids a ['\x7b', '\x7d']) (depth : Nat)
    (b : Text) : depthAfter depth (a ++ b) = depthAfter depth b := by
  induction a with
  | nil => rfl
  | cons c a ih =>
    obtain ⟨hc, ha⟩ := avoids_cons.1 h
    have hplain : c ≠ '\x7b' ∧ c ≠ '\x7d' := by simpa using hc
    rw [List.cons_append, depthAfter_plain depth hplain.1 hplain.2, ih ha]

/-- Further in, a text does the same. -/
theorem depthAfter_add {depth depth' : Nat} {s : Text} (h : depthAfter depth s = some depth')
    (k : Nat) : depthAfter (depth + k) s = some (depth' + k) := by
  induction s generalizing depth with
  | nil =>
    obtain rfl := Option.some.inj h
    rfl
  | cons c s ih =>
    by_cases hclose : c = '\x7d'
    · subst hclose
      -- where a brace could be closed, one can be closed further in
      have hdepth : depth ≠ 0 := by
        rintro rfl
        cases h
      have hpred : depth + k - 1 = depth - 1 + k := by omega
      rw [depthAfter_close hdepth] at h
      rw [depthAfter_close (by omega), hpred, ih h]
    · by_cases hopen : c = '\x7b'
      · subst hopen
        rw [depthAfter_open] at h
        rw [depthAfter_open, Nat.add_right_comm, ih h]
      · rw [depthAfter_plain depth hopen hclose] at h
        rw [depthAfter_plain _ hopen hclose, ih h]

theorem BraceBalanced.depthAfter_eq {s : Text} (h : BraceBalanced s) (depth : Nat) :
    depthAfter depth s = some depth := by
  have hshift := depthAfter_add h depth
  rwa [Nat.zero_add] at hshift

theorem braceBalanced_nil : BraceBalanced [] := rfl

theorem BraceBalanced.append {a b : Text} (ha : BraceBalanced a) (hb : BraceBalanced b) :
    BraceBalanced (a ++ b) := by
  rw [BraceBalanced, depthAfter_append, ha]
  exact hb

theorem BraceBalanced.intercalate {sep : Text} (hsep : BraceBalanced sep) {texts : List Text}
    (h : ∀ t ∈ texts, BraceBalanced t) : BraceBalanced (sep.intercalate texts) := by
  induction texts with
  | nil => exact braceBalanced_nil
  | cons t texts ih =>
    obtain ⟨ht, hrest⟩ := List.forall_mem_cons.1 h
    cases texts with
    | nil => rwa [List.intercalate_singleton]
    | cons t' texts =>
      rw [List.intercalate_cons_cons]
      exact (ht.append hsep).append (ih hrest)

theorem depthAfter_ofLines (depth : Nat) (lines : List Text) :
    depthAfter depth (ofLines lines) = depthAfter depth lines.flatten := by
  have hend : ∀ depth s, depthAfter depth ('\n' :: s) = depthAfter depth s := fun depth s =>
    depthAfter_plain depth (by decide) (by decide) s
  induction lines generalizing depth with
  | nil => rfl
  | cons line lines ih =>
    rw [ofLines_cons, List.flatten_cons, depthAfter_append, depthAfter_append]
    congr 1
    funext depth'
    rw [hend, ih]

theorem braceBalanced_ofLines_iff {lines : List Text} :
    BraceBalanced (ofLines lines) ↔ BraceBalanced lines.flatten := by
  rw [BraceBalanced, BraceBalanced, depthAfter_ofLines]

/-- A balanced text stands before the brace that closes around it. -/
theorem upToClose_append {depth : Nat} {s : Text} (h : depthAfter depth s = some 0) (t : Text) :
    upToClose (depth + 1) (s ++ '\x7d' :: t) = some s := by
  -- the brace around the text keeps the scan one level deeper than the text's own depth
  induction s generalizing depth with
  | nil =>
    obtain rfl := Option.some.inj h
    rfl
  | cons c s ih =>
    rw [List.cons_append, upToClose]
    by_cases hclose : c = '\x7d'
    · subst hclose
      have hdepth : depth ≠ 0 := by
        rintro rfl
        cases h
      have hpred : depth + 1 - 1 = depth - 1 + 1 := by omega
      rw [depthAfter_close hdepth] at h
      rw [if_pos rfl, if_neg (by omega), hpred, ih h]
      rfl
    · rw [if_neg hclose]
      by_cases hopen : c = '\x7b'
      · subst hopen
        rw [depthAfter_open] at h
        rw [if_pos rfl, ih h]
        rfl
      · rw [depthAfter_plain depth hopen hclose] at h
        rw [if_neg hopen, ih h]
        rfl

/-! ### Angle brackets -/

/-- Whether all commas of a text stand within angle brackets, which are closed at its end. -/
def isEntry (depth : Nat) : Text → Bool
  | [] => depth = 0
  | c :: s => (c ≠ ',' || depth ≠ 0) && isEntry (angleDepth depth c) s

theorem isEntry_append_of_avoids {a : Text} (h : Avoids a [',', '<', '>']) (depth : Nat)
    (s : Text) : isEntry depth (a ++ s) = isEntry depth s := by
  induction a with
  | nil => rfl
  | cons c a ih =>
    obtain ⟨hc, ha⟩ := avoids_cons.1 h
    obtain ⟨hcomma, hless, hgreater⟩ : c ≠ ',' ∧ c ≠ '<' ∧ c ≠ '>' := by simpa using hc
    have hdepth : angleDepth depth c = depth := by
      unfold angleDepth
      split
      · exact absurd rfl hless
      · exact absurd rfl hgreater
      · rfl
    rw [List.cons_append, isEntry, hdepth, ih ha]
    simp [hcomma]

/-- Within an entry no comma ends it. -/
theorem entries_cons_of_isEntry {depth : Nat} {c : Char} {e : Text}
    (h : isEntry depth (c :: e) = true) (s : Text) :
    entries depth (c :: s) = consFirst c (entries (angleDepth depth c) s) := by
  have hinside : ¬ (c = ',' && depth = 0) = true := by
    have hc := (Bool.and_eq_true_iff.1 h).1
    simp at hc ⊢
    tauto
  rw [entries, if_neg hinside]

theorem entries_ne_nil (depth : Nat) (s : Text) : entries depth s ≠ [] := by
  cases s with
  | nil => exact List.cons_ne_nil _ _
  | cons c s =>
    rw [entries]
    split
    · exact List.cons_ne_nil _ _
    · cases entries (angleDepth depth c) s <;> exact List.cons_ne_nil _ _

theorem entries_of_isEntry {depth : Nat} {e : Text} (h : isEntry depth e = true) :
    entries depth e = [e] := by
  induction e generalizing depth with
  | nil => rfl
  | cons c e ih =>
    rw [entries_cons_of_isEntry h, ih (Bool.and_eq_true_iff.1 h).2, consFirst]

theorem entries_append {depth : Nat} {e : Text} (h : isEntry depth e = true) (s : Text) :
    entries depth (e ++ ',' :: s) = e :: entries 0 s := by
  induction e generalizing depth with
  | nil =>
    obtain rfl : depth = 0 := by simpa [isEntry] using h
    rfl
  | cons c e ih =>
    rw [List.cons_append, entries_cons_of_isEntry h, ih (Bool.and_eq_true_iff.1 h).2, consFirst]

/-- A blank after a comma is trimmed off with it. -/
theorem map_trim_entries_blank (s : Text) :
    (entries 0 (' ' :: s)).map trim = (entries 0 s).map trim := by
  obtain ⟨e, rest, he⟩ := List.exists_cons_of_ne_nil (entries_ne_nil 0 s)
  have hblank : entries 0 (' ' :: s) = consFirst ' ' (entries 0 s) := rfl
  rw [hblank, he, consFirst, List.map_cons, List.map_cons, trim_blank_cons (by decide)]

/-- A list of entries splits into what was joined. -/
theorem map_trim_entries {list : List Text} (hne : list ≠ [])
    (h : ∀ e ∈ list, isEntry 0 e = true ∧ Trimmed e) :
    (entries 0 (", ".toList.intercalate list)).map trim = list := by
  induction list with
  | nil => exact absurd rfl hne
  | cons e list ih =>
    obtain ⟨⟨hentry, htrim⟩, hrest⟩ := List.forall_mem_cons.1 h
    cases list with
    | nil =>
      rw [List.intercalate_singleton, entries_of_isEntry hentry, List.map_singleton, htrim.trim_eq]
    | cons e' list =>
      have hjoin : ", ".toList.intercalate (e :: e' :: list) =
          e ++ ',' :: ' ' :: ", ".toList.intercalate (e' :: list) := by
        rw [List.intercalate_cons_cons, List.append_assoc]
        rfl
      rw [hjoin, entries_append hentry, List.map_cons, map_trim_entries_blank,
        ih (List.cons_ne_nil e' list) hrest, htrim.trim_eq]

end TypedId.Outline
