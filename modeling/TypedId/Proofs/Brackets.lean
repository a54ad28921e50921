import TypedId.Proofs.Leftmost
import TypedId.Proofs.Nesting

/-!
# Brackets in pairs

Brackets are nested in a text where it has as many closing as opening ones and no front of it has
more closing ones. The depth that the outline keeps as it reads agrees with the counts, so the body
that it finds is the nested block after the first brace of the struct.
-/

namespace TypedId.Outline

open Text

/-! ### Counts -/

/-- The brackets of a text are in pairs. -/
structure Nested (opening closing : Char) (s : Text) : Prop where
  front : ∀ p, p <+: s → p.count closing ≤ p.count opening
  even : s.count opening = s.count closing

instance (opening closing : Char) (s : Text) : Decidable (Nested opening closing s) :=
  decidable_of_iff ((∀ p ∈ s.inits, p.count closing ≤ p.count opening) ∧
      s.count opening = s.count closing) (by
    simp only [List.mem_inits]
    exact ⟨fun h => ⟨h.1, h.2⟩, fun h => ⟨h.front, h.even⟩⟩)

/-- Every closing bracket has its partner in the text or among `depth` open ones before it. -/
def Matched (opening closing : Char) (depth : Nat) (s : Text) : Prop :=
  ∀ p, p <+: s → p.count closing ≤ depth + p.count opening

theorem forall_prefix_cons {P : Text → Prop} {c : Char} {s : Text} :
    (∀ p, p <+: c :: s → P p) ↔ P [] ∧ ∀ p, p <+: s → P (c :: p) := by
  constructor
  · intro h
    refine ⟨h [] List.nil_prefix, fun p hp => h (c :: p) ?_⟩
    exact List.cons_prefix_cons.2 ⟨rfl, hp⟩
  · intro ⟨hnil, hcons⟩ p hp
    cases p with
    | nil => exact hnil
    | cons d p =>
      obtain ⟨hd, hp⟩ := List.cons_prefix_cons.1 hp
      rw [hd]
      exact hcons p hp

namespace Matched

variable {opening closing c : Char} {depth : Nat} {s : Text}

theorem nil : Matched opening closing depth [] := by
  intro p hp
  rw [List.prefix_nil.1 hp]
  simp

theorem cons_iff : Matched opening closing depth (c :: s) ↔
    ∀ p, p <+: s → (c :: p).count closing ≤ depth + (c :: p).count opening := by
  rw [Matched, forall_prefix_cons]
  simp

theorem open_iff (hne : opening ≠ closing) :
    Matched opening closing depth (opening :: s) ↔ Matched opening closing (depth + 1) s := by
  rw [cons_iff]
  refine forall₂_congr fun p _ => ?_
  rw [List.count_cons_of_ne hne, List.count_cons_self]
  omega

theorem close_iff (hne : opening ≠ closing) : Matched opening closing depth (closing :: s) ↔
    depth ≠ 0 ∧ Matched opening closing (depth - 1) s := by
  have hcount : ∀ p : Text, (closing :: p).count closing = p.count closing + 1 ∧
      (closing :: p).count opening = p.count opening := fun p =>
    ⟨List.count_cons_self, List.count_cons_of_ne (Ne.symm hne)⟩
  rw [cons_iff]
  constructor
  · intro h
    have hfirst := h [] List.nil_prefix
    simp only [hcount, List.count_nil] at hfirst
    refine ⟨by omega, fun p hp => ?_⟩
    have hle := h p hp
    simp only [hcount] at hle
    omega
  · intro ⟨hdepth, h⟩ p hp
    have hle := h p hp
    simp only [hcount]
    omega

theorem plain_iff (hopen : c ≠ opening) (hclose : c ≠ closing) :
    Matched opening closing depth (c :: s) ↔ Matched opening closing depth s := by
  rw [cons_iff]
  refine forall₂_congr fun p _ => ?_
  rw [List.count_cons_of_ne hclose, List.count_cons_of_ne hopen]

end Matched

theorem matched_zero_iff {opening closing : Char} {s : Text} : Matched opening closing 0 s ↔
    ∀ p, p <+: s → p.count closing ≤ p.count opening := by
  simp only [Matched, Nat.zero_add]

theorem nested_iff {opening closing : Char} {s : Text} : Nested opening closing s ↔
    Matched opening closing 0 s ∧ s.count opening = s.count closing := by
  rw [matched_zero_iff]
  exact ⟨fun h => ⟨h.front, h.even⟩, fun h => ⟨h.1, h.2⟩⟩

/-! ### The depth of braces -/

/-- The depth after a text is what was open before it and what it opens less what it closes. -/
theorem depthAfter_eq_some_iff {depth depth' : Nat} {s : Text} :
    depthAfter depth s = some depth' ↔ Matched '\x7b' '\x7d' depth s ∧
      depth' + s.count '\x7d' = depth + s.count '\x7b' := by
  induction s generalizing depth with
  | nil =>
    rw [depthAfter, Option.some_inj, and_iff_right Matched.nil, List.count_nil, List.count_nil]
    omega
  | cons c s ih =>
    by_cases hclose : c = '\x7d'
    · subst hclose
      have hcount : ('\x7d' :: s).count '\x7b' = s.count '\x7b' :=
        List.count_cons_of_ne (by decide)
      rw [Matched.close_iff (by decide), List.count_cons_self, hcount]
      by_cases hdepth : depth = 0
      · subst hdepth
        have hnone : depthAfter 0 ('\x7d' :: s) = none := rfl
        rw [hnone]
        simp
      · rw [depthAfter_close hdepth, ih, and_iff_right hdepth]
        refine and_congr_right fun _ => ?_
        omega
    · by_cases hopen : c = '\x7b'
      · subst hopen
        have hcount : ('\x7b' :: s).count '\x7d' = s.count '\x7d' :=
          List.count_cons_of_ne (by decide)
        rw [depthAfter_open, ih, Matched.open_iff (by decide), List.count_cons_self, hcount]
        refine and_congr_right fun _ => ?_
        omega
      · rw [depthAfter_plain depth hopen hclose, ih, Matched.plain_iff hopen hclose,
          List.count_cons_of_ne hopen, List.count_cons_of_ne hclose]

theorem isSome_depthAfter_iff {depth : Nat} {s : Text} :
    (depthAfter depth s).isSome = true ↔ Matched '\x7b' '\x7d' depth s := by
  rw [Option.isSome_iff_exists]
  constructor
  · intro ⟨depth', h⟩
    exact (depthAfter_eq_some_iff.1 h).1
  · intro h
    have hle := h s List.prefix_rfl
    exact ⟨depth + s.count '\x7b' - s.count '\x7d', depthAfter_eq_some_iff.2 ⟨h, by omega⟩⟩

theorem nested_braces_iff {s : Text} : Nested '\x7b' '\x7d' s ↔ BraceBalanced s := by
  rw [nested_iff, BraceBalanced, depthAfter_eq_some_iff]
  refine and_congr_right fun _ => ?_
  omega

/-! ### The brace that closes -/

theorem upToClose_eq_some_iff {depth : Nat} {s b : Text} :
    upToClose (depth + 1) s = some b ↔
      ∃ after, s = b ++ '\x7d' :: after ∧ depthAfter depth b = some 0 := by
  constructor
  · intro h
    induction s generalizing depth b with
    | nil => cases h
    | cons c s ih =>
      -- a character that does not end the block takes the scan to the depth that it leaves
      have hstep : ∀ {d}, (∀ t, depthAfter depth (c :: t) = depthAfter d t) →
          (upToClose (d + 1) s).map (c :: ·) = some b →
          ∃ after, c :: s = b ++ '\x7d' :: after ∧ depthAfter depth b = some 0 := by
        intro d hd hscan
        obtain ⟨rest, hrest, hb⟩ := Option.map_eq_some_iff.1 hscan
        obtain ⟨after, hs, hdepth⟩ := ih hrest
        refine ⟨after, by rw [← hb, hs, List.cons_append], ?_⟩
        rw [← hb, hd, hdepth]
      rw [upToClose] at h
      by_cases hclose : c = '\x7d'
      · subst hclose
        rw [if_pos rfl] at h
        split at h
        · next hlast =>
          obtain rfl := Option.some.inj h
          have hdepth : depth = 0 := by omega
          exact ⟨s, rfl, by rw [hdepth, depthAfter]⟩
        · next hinner =>
          have hpred : depth + 1 - 1 = depth - 1 + 1 := by omega
          rw [hpred] at h
          exact hstep (depthAfter_close (by omega)) h
      · rw [if_neg hclose] at h
        by_cases hopen : c = '\x7b'
        · subst hopen
          exact hstep (depthAfter_open depth) h
        · rw [if_neg hopen] at h
          exact hstep (depthAfter_plain depth hopen hclose) h
  · rintro ⟨after, hs, hdepth⟩
    rw [hs]
    exact upToClose_append hdepth after

/-- The scan comes to the end of a text that never closes what is open around it. -/
theorem upToClose_eq_none_iff {depth : Nat} {s : Text} :
    upToClose (depth + 1) s = none ↔ Matched '\x7b' '\x7d' depth s := by
  rw [← isSome_depthAfter_iff]
  induction s generalizing depth with
  | nil => simp [upToClose, depthAfter]
  | cons c s ih =>
    rw [upToClose]
    by_cases hclose : c = '\x7d'
    · subst hclose
      rw [if_pos rfl]
      by_cases hdepth : depth = 0
      · subst hdepth
        simp [depthAfter]
      · have hpred : depth + 1 - 1 = depth - 1 + 1 := by omega
        rw [if_neg (by omega), hpred, Option.map_eq_none_iff, ih, depthAfter_close hdepth]
    · rw [if_neg hclose, Option.map_eq_none_iff]
      by_cases hopen : c = '\x7b'
      · subst hopen
        rw [if_pos rfl, ih, depthAfter_open]
      · rw [if_neg hopen, ih, depthAfter_plain depth hopen hclose]

/-! ### The block of the struct -/

/-- What follows the brace that opens the struct: the first at or after the first header. -/
def Opened (source inside : Text) : Prop :=
  ∃ before rest gap, Leftmost (· = headerOpening) source before headerOpening rest ∧
    Leftmost (· = ['\x7b']) (headerOpening ++ rest) gap ['\x7b'] inside

theorem leftmost_singleton_iff {c : Char} {s gap inside : Text} :
    Leftmost (· = [c]) s gap [c] inside ↔ c ∉ gap ∧ s = gap ++ c :: inside := by
  have hcut : splitFirst? [c] s = some (gap, inside) ↔ Leftmost (· = [c]) s gap [c] inside :=
    splitFirst?_eq_some_iff (List.cons_ne_nil c [])
  constructor
  · intro h
    refine ⟨fun hmem => ?_, h.split⟩
    obtain ⟨front, back, hgap⟩ := List.append_of_mem hmem
    have hle := h.least front [c] (back ++ c :: inside) (by rw [h.split, hgap]; simp) rfl
    rw [hgap, List.length_append, List.length_cons] at hle
    omega
  · intro ⟨hgap, hs⟩
    rw [← hcut, hs]
    exact splitFirst?_of_not_mem hgap [] inside

theorem forall_ne_of_not_mem {c : Char} {s : Text} (h : c ∉ s) :
    ∀ d ∈ s, decide (d ≠ c) = true := by
  intro d hd
  rw [decide_eq_true_iff]
  intro hdc
  exact h (hdc ▸ hd)

theorem dropWhile_ne_eq_cons_iff {c : Char} {s inside : Text} :
    s.dropWhile (· ≠ c) = c :: inside ↔ ∃ gap, c ∉ gap ∧ s = gap ++ c :: inside := by
  constructor
  · intro h
    refine ⟨s.takeWhile (· ≠ c), fun hmem => ?_, ?_⟩
    · have hne := List.mem_takeWhile_imp hmem
      simp at hne
    · rw [← h, List.takeWhile_append_dropWhile]
  · intro ⟨gap, hgap, hs⟩
    rw [hs, List.dropWhile_append_of_pos (forall_ne_of_not_mem hgap),
      List.dropWhile_cons_of_neg (by simp)]

theorem headerOpening_ne_nil : headerOpening ≠ [] := by decide

/-- No brace stands in the words that open the header, so the first one comes after them. -/
theorem opened_iff {source inside : Text} : Opened source inside ↔ ∃ before rest,
    splitFirst? headerOpening source = some (before, rest) ∧
      rest.dropWhile (· ≠ '\x7b') = '\x7b' :: inside := by
  have hheader : '\x7b' ∉ headerOpening := by decide
  have hdrop : ∀ rest, (headerOpening ++ rest).dropWhile (· ≠ '\x7b') =
      rest.dropWhile (· ≠ '\x7b') := fun rest =>
    List.dropWhile_append_of_pos (forall_ne_of_not_mem hheader)
  simp only [Opened, leftmost_singleton_iff, ← dropWhile_ne_eq_cons_iff, hdrop, exists_and_left,
    splitFirst?_eq_some_iff headerOpening_ne_nil]

theorem structBody?_of_opened {source inside : Text} (h : Opened source inside) :
    structBody? source = upToClose 1 inside := by
  obtain ⟨before, rest, hcut, hdrop⟩ := opened_iff.1 h
  rw [structBody?, hcut, Option.bind_some, hdrop, List.drop_one, List.tail_cons]

/-- Without a header, or without a brace from there on, nothing is opened and no body found. -/
theorem structBody?_of_unopened {source : Text} (h : ¬ headerOpening <:+: source ∨
    ∃ before rest, Leftmost (· = headerOpening) source before headerOpening rest ∧
      '\x7b' ∉ rest) : structBody? source = none := by
  rw [structBody?]
  rcases h with habsent | ⟨before, rest, hfirst, hbrace⟩
  · rw [splitFirst?_of_absent habsent, Option.bind_none]
  · have hdrop : rest.dropWhile (· ≠ '\x7b') = [] :=
      List.dropWhile_eq_nil_iff.2 (forall_ne_of_not_mem hbrace)
    rw [(splitFirst?_eq_some_iff headerOpening_ne_nil).2 hfirst, Option.bind_some, hdrop]
    rfl

theorem opened_or_not (source : Text) : (∃ inside, Opened source inside) ∨
    ¬ headerOpening <:+: source ∨
    ∃ before rest, Leftmost (· = headerOpening) source before headerOpening rest ∧
      '\x7b' ∉ rest := by
  by_cases hheader : headerOpening <:+: source
  · rw [← occursIn_iff_infix, occursIn, Option.isSome_iff_exists] at hheader
    obtain ⟨⟨before, rest⟩, hcut⟩ := hheader
    have hfirst := (splitFirst?_eq_some_iff headerOpening_ne_nil).1 hcut
    by_cases hbrace : '\x7b' ∈ rest
    · obtain ⟨gap, inside, hrest, hgap⟩ := List.eq_append_cons_of_mem hbrace
      have hdrop := dropWhile_ne_eq_cons_iff.2 ⟨gap, hgap, hrest⟩
      exact Or.inl ⟨inside, opened_iff.2 ⟨before, rest, hcut, hdrop⟩⟩
    · exact Or.inr (Or.inr ⟨before, rest, hfirst, hbrace⟩)
  · exact Or.inr (Or.inl hheader)

/-- The braces of the struct enclose `b`: from the one that opens it on, the text is `b` in braces
and more, and the braces of `b` are in pairs. -/
def Encloses (source b : Text) : Prop :=
  ∃ after, Opened source (b ++ '\x7d' :: after) ∧ Nested '\x7b' '\x7d' b

theorem structBody?_eq_some_iff {source b : Text} :
    structBody? source = some b ↔ Encloses source b := by
  constructor
  · intro h
    rcases opened_or_not source with ⟨inside, hopened⟩ | hnot
    · rw [structBody?_of_opened hopened] at h
      obtain ⟨after, hinside, hdepth⟩ := upToClose_eq_some_iff.1 h
      exact ⟨after, hinside ▸ hopened, nested_braces_iff.2 hdepth⟩
    · rw [structBody?_of_unopened hnot] at h
      cases h
  · intro ⟨after, hopened, hnested⟩
    rw [structBody?_of_opened hopened, upToClose_eq_some_iff]
    exact ⟨after, rfl, nested_braces_iff.1 hnested⟩

theorem structBody?_eq_none_iff {source : Text} : structBody? source = none ↔
    ¬ headerOpening <:+: source ∨
    (∃ before rest, Leftmost (· = headerOpening) source before headerOpening rest ∧
      '\x7b' ∉ rest) ∨
    ∃ inside, Opened source inside ∧ ∀ p, p <+: inside → p.count '\x7d' ≤ p.count '\x7b' := by
  have hclosed : ∀ {inside}, Opened source inside → (structBody? source = none ↔
      ∀ p, p <+: inside → p.count '\x7d' ≤ p.count '\x7b') := by
    intro inside hopened
    rw [structBody?_of_opened hopened, upToClose_eq_none_iff, matched_zero_iff]
  constructor
  · intro h
    rcases opened_or_not source with ⟨inside, hopened⟩ | habsent | hunopened
    · exact Or.inr (Or.inr ⟨inside, hopened, (hclosed hopened).1 h⟩)
    · exact Or.inl habsent
    · exact Or.inr (Or.inl hunopened)
  · intro h
    rcases h with habsent | hunopened | ⟨inside, hopened, hnever⟩
    · exact structBody?_of_unopened (Or.inl habsent)
    · exact structBody?_of_unopened (Or.inr hunopened)
    · exact (hclosed hopened).2 hnever

/-- The body of the struct is the one block that its braces enclose. There is none only where the
text has no header, no brace from the header on, or never closes that brace. -/
theorem block_exact (source : Text) :
    (∀ b, structBody? source = some b ↔ Encloses source b) ∧
    (∀ b b', Encloses source b → Encloses source b' → b = b') ∧
    (structBody? source = none ↔
      ¬ headerOpening <:+: source ∨
      (∃ before rest, Leftmost (· = headerOpening) source before headerOpening rest ∧
        '\x7b' ∉ rest) ∨
      ∃ inside, Opened source inside ∧
        ∀ p, p <+: inside → p.count '\x7d' ≤ p.count '\x7b') := by
  refine ⟨fun b => structBody?_eq_some_iff, fun b b' h h' => ?_, structBody?_eq_none_iff⟩
  have hb := structBody?_eq_some_iff.2 h
  rw [structBody?_eq_some_iff.2 h'] at hb
  exact (Option.some.inj hb).symm

end TypedId.Outline
