import TypedId.Proofs.Brackets
import TypedId.Proofs.Page

/-!
# The line with the interface clause

What the outline lists is what the clause of the struct header was written from, however deep the
type arguments of its entries are nested, and whatever lines stand before and after it.
-/

namespace TypedId

namespace Outline

open Text

/-! ### Entries -/

/-- What a clause can list: angle brackets are in pairs, and all commas stand within them. -/
structure ClauseEntry (e : Text) : Prop where
  ne_nil : e ≠ []
  newline : '\n' ∉ e
  trimmed : Trimmed e
  nested : Nested '<' '>' e
  commas : ∀ p, p ++ [','] <+: e → p.count '>' < p.count '<'

-- a front before a comma is a front of the text, so there are finitely many to try
instance (e : Text) : Decidable (ClauseEntry e) :=
  decidable_of_iff (e ≠ [] ∧ '\n' ∉ e ∧
      (e.head?.all (fun c => !isBlank c) = true ∧ e.getLast?.all (fun c => !isBlank c) = true) ∧
      Nested '<' '>' e ∧
      ∀ p ∈ e.inits, p ++ [','] <+: e → p.count '>' < p.count '<') (by
    simp only [Option.all_eq_true, Bool.not_eq_true']
    constructor
    · intro ⟨hne, hline, htrim, hnested, hcommas⟩
      refine ⟨hne, hline, ⟨htrim.1, htrim.2⟩, hnested, fun p hp => hcommas p ?_ hp⟩
      exact (List.mem_inits p e).2 ((List.prefix_append p _).trans hp)
    · intro h
      exact ⟨h.ne_nil, h.newline, ⟨h.trimmed.first, h.trimmed.last⟩, h.nested,
        fun p _ => h.commas p⟩)

/-- With what is open before it, the text keeps its commas within angle brackets and closes all. -/
structure Sheltered (depth : Nat) (s : Text) : Prop where
  matched : Matched '<' '>' depth s
  even : depth + s.count '<' = s.count '>'
  commas : ∀ p, p ++ [','] <+: s → p.count '>' < depth + p.count '<'

theorem ClauseEntry.sheltered {e : Text} (h : ClauseEntry e) : Sheltered 0 e where
  matched := (nested_iff.1 h.nested).1
  even := by rw [Nat.zero_add, h.nested.even]
  commas p hp := by
    have hlt := h.commas p hp
    omega

/-- A character changes the depth as it changes what is open before the text after it. -/
theorem angleDepth_add {depth : Nat} {c : Char} (hc : c = '>' → depth ≠ 0) (p : Text) :
    angleDepth depth c + p.count '<' + (c :: p).count '>' =
      depth + (c :: p).count '<' + p.count '>' := by
  unfold angleDepth
  split
  · have hcount : ('<' :: p).count '>' = p.count '>' := List.count_cons_of_ne (by decide)
    rw [hcount, List.count_cons_self]
    omega
  · have hcount : ('>' :: p).count '<' = p.count '<' := List.count_cons_of_ne (by decide)
    have hdepth := hc rfl
    rw [hcount, List.count_cons_self]
    omega
  · next hopen hclose =>
    rw [List.count_cons_of_ne hopen, List.count_cons_of_ne hclose]

theorem Sheltered.of_cons {depth : Nat} {c : Char} {s : Text} (h : Sheltered depth (c :: s)) :
    Sheltered (angleDepth depth c) s := by
  have hc : c = '>' → depth ≠ 0 := by
    intro hclose
    have hle := h.matched [c] ⟨s, rfl⟩
    simp [hclose] at hle
    omega
  have hcons : ∀ {p}, p <+: s → c :: p <+: c :: s := fun hp => List.cons_prefix_cons.2 ⟨rfl, hp⟩
  refine ⟨fun p hp => ?_, ?_, fun p hp => ?_⟩
  · have hle := h.matched (c :: p) (hcons hp)
    have hadd := angleDepth_add hc p
    omega
  · have heven := h.even
    have hadd := angleDepth_add hc s
    omega
  · have hlt := h.commas (c :: p) (hcons hp)
    have hadd := angleDepth_add hc p
    omega

theorem Sheltered.isEntry_eq {depth : Nat} {s : Text} (h : Sheltered depth s) :
    isEntry depth s = true := by
  induction s generalizing depth with
  | nil =>
    have heven := h.even
    rw [isEntry, decide_eq_true_iff]
    simpa using heven
  | cons c s ih =>
    rw [isEntry, ih h.of_cons, Bool.and_true, Bool.or_eq_true, decide_eq_true_iff,
      decide_eq_true_iff]
    by_cases hc : c = ','
    · have hlt := h.commas [] ⟨s, by rw [hc]; rfl⟩
      simp only [List.count_nil] at hlt
      exact Or.inr (by omega)
    · exact Or.inl hc

/-! ### The header line -/

theorem trimmed_clauseLine {name : Text} {entries : List Text} (hne : entries ≠ [])
    (hentries : ∀ e ∈ entries, ClauseEntry e) :
    Trimmed (headerOpening ++ name ++ " : ".toList ++ ", ".toList.intercalate entries) where
  first c hc := by
    rw [headerOpening_eq] at hc
    cases hc
    decide
  last c hc := by
    have hlast : ∀ e ∈ entries, ∃ d, e.getLast? = some d ∧ isBlank d = false := by
      intro e he
      have hentry := hentries e he
      have hd := List.getLast?_eq_getLast_of_ne_nil hentry.ne_nil
      exact ⟨_, hd, hentry.trimmed.last _ hd⟩
    have hjoined : ∃ d, (", ".toList.intercalate entries).getLast? = some d ∧ isBlank d = false :=
      intercalate_induction (fun a _ => exists_last_append a) hne hlast
    obtain ⟨d, hd, hblank⟩ := exists_last_append (headerOpening ++ name ++ " : ".toList) hjoined
    rw [hd] at hc
    cases hc
    exact hblank

theorem newline_not_mem_clauseLine {name : Text} {entries : List Text}
    (hname : isIdentifier name = true) (hentries : ∀ e ∈ entries, ClauseEntry e) :
    '\n' ∉ headerOpening ++ name ++ " : ".toList ++ ", ".toList.intercalate entries := by
  have hjoined : Avoids (", ".toList.intercalate entries) ['\n'] := by
    refine Avoids.intercalate (by decide) fun e he => ?_
    exact List.forall_mem_singleton.2 (hentries e he).newline
  simp only [List.mem_append, not_or]
  refine ⟨⟨⟨newline_not_mem_headerOpening, ?_⟩, by decide⟩, hjoined _ List.mem_cons_self⟩
  exact not_mem_of_isIdentifier hname (by decide)

/-- A clause that lists entries reads back as them, whatever complete lines stand before its line
and whatever stands after it. -/
theorem interfaces_clauseLine {front entries : List Text} {name after : Text}
    (hfront : ∀ l ∈ front, '\n' ∉ l ∧ ¬ headerOpening <+: trim l)
    (hname : isIdentifier name = true) (hne : entries ≠ [])
    (hentries : ∀ e ∈ entries, ClauseEntry e) (hafter : AtLineEnd after) :
    interfaces (ofLines front ++
      (headerOpening ++ name ++ " : ".toList ++ ", ".toList.intercalate entries ++ after)) =
      entries := by
  have hopening : headerOpening <+:
      headerOpening ++ name ++ " : ".toList ++ ", ".toList.intercalate entries :=
    ⟨name ++ " : ".toList ++ ", ".toList.intercalate entries, by simp only [List.append_assoc]⟩
  have hheader := structHeader?_of_line hfront hafter (newline_not_mem_clauseLine hname hentries)
    (trimmed_clauseLine hne hentries) hopening
  have hlist : ∀ e ∈ entries, isEntry 0 e = true ∧ Trimmed e := fun e he =>
    ⟨(hentries e he).sheltered.isEntry_eq, (hentries e he).trimmed⟩
  refine interfaces_eq ?_ hname hlist
  have hheading : Interfaces.heading entries = " : ".toList ++ ", ".toList.intercalate entries := by
    obtain ⟨e, rest, rfl⟩ := List.exists_cons_of_ne_nil hne
    rfl
  rw [hheader, hheading, ← List.append_assoc]

/-- Lines before a header, one of them with the header's words inside. -/
def frontLines : List Text :=
  ["// <auto-generated/>\r".toList, [], "// a readonly partial struct ".toList,
    "[A(typeof(B))]".toList]

/-- Entries with type arguments inside of type arguments. -/
def nestedEntries : List Text :=
  ["IMap<Key<A, B>, Pair<É, List<C, D>>>".toList, "System.IFormattable".toList, "I<A, B>".toList]

theorem interfaces_nestedEntries :
    (∀ l ∈ frontLines, '\n' ∉ l ∧ ¬ headerOpening <+: trim l) ∧
    isIdentifier "Id".toList = true ∧ nestedEntries ≠ [] ∧ (∀ e ∈ nestedEntries, ClauseEntry e) ∧
    AtLineEnd "\r\n\x7b\n\x7d".toList ∧
    interfaces (ofLines frontLines ++ (headerOpening ++ "Id".toList ++ " : ".toList ++
      ", ".toList.intercalate nestedEntries ++ "\r\n\x7b\n\x7d".toList)) = nestedEntries := by
  have hfront : ∀ l ∈ frontLines, '\n' ∉ l ∧ ¬ headerOpening <+: trim l := by decide
  have hentries : ∀ e ∈ nestedEntries, ClauseEntry e := by decide +kernel
  have hafter : AtLineEnd "\r\n\x7b\n\x7d".toList := Or.inr (Or.inr (by decide))
  have hname : isIdentifier "Id".toList = true := by decide
  have hne : nestedEntries ≠ [] := by decide
  exact ⟨hfront, hname, hne, hentries, hafter,
    interfaces_clauseLine hfront hname hne hentries hafter⟩

end Outline
end TypedId
