import TypedId.Proofs.Batches

/-!
# Files from before

Where a unit's file is there from before, a write first reads it as a text. A file whose bytes are
no text cannot be read so, and no write replaces it. Any other file gives way to the source, and so
does no file at all.
-/

namespace TypedId

namespace Text

/-- The bytes are the UTF-8 form of a text. -/
def IsEncoding (bytes : ByteArray) : Prop := ∃ s, encode s = bytes

theorem isEncoding_iff {bytes : ByteArray} : IsEncoding bytes ↔ (decode? bytes).isSome = true := by
  rw [Option.isSome_iff_exists]
  constructor
  · intro ⟨s, hs⟩
    exact ⟨s, by rw [← hs, decode?_encode]⟩
  · intro ⟨s, hs⟩
    exact ⟨s, encode_of_decode? hs⟩

instance (bytes : ByteArray) : Decidable (IsEncoding bytes) :=
  decidable_of_iff _ isEncoding_iff.symm

theorem decode?_eq_none {bytes : ByteArray} (h : ¬ IsEncoding bytes) : decode? bytes = none := by
  rw [isEncoding_iff, Bool.not_eq_true, Option.isSome_eq_false_iff, Option.isNone_iff_eq_none] at h
  exact h

end Text

namespace Sink

open Text

variable {k : Sink} {t t' : FileTree} {base : Path} {u v : SourceUnit}

/-- A unit with a file name, whose place in the tree holds a file or nothing. -/
structure Regenerable (k : Sink) (t : FileTree) (u : SourceUnit) : Prop where
  generated : u.Generated
  short : byteLength u.hintName ≤ Path.longestName
  noDirectory : ∀ file, k.place? u = some file → t.lookup file ≠ some .directory

/-- The bytes of the unit's file are a text, if there is a file. -/
def Readable (k : Sink) (t : FileTree) (u : SourceUnit) : Prop :=
  ∀ file bytes, k.place? u = some file → t.lookup file = some (.file bytes) → IsEncoding bytes

theorem place?_eq (hbase : k.directory = some base) (u : SourceUnit) :
    k.place? u = some (base ++ [u.hintName]) := by
  rw [place?, hbase, Option.map_some]

theorem readable_iff (hbase : k.directory = some base) : k.Readable t u ↔
    ∀ bytes, t.lookup (base ++ [u.hintName]) = some (.file bytes) → IsEncoding bytes := by
  constructor
  · intro h bytes
    exact h _ bytes (place?_eq hbase u)
  · intro h file bytes hplace
    rw [place?_eq hbase] at hplace
    rw [← Option.some.inj hplace]
    exact h bytes

theorem Holds.readable (h : k.Holds t u) : k.Readable t u := by
  obtain ⟨file, hplace, hfile⟩ := h
  intro file' bytes hplace' hfile'
  rw [← Option.some.inj (hplace.symm.trans hplace'), hfile] at hfile'
  cases hfile'
  exact ⟨u.source, rfl⟩

/-! ### One write -/

theorem Regenerable.write_eq (h : k.Regenerable t u) (hbase : k.directory = some base) :
    k.write t u = (writeText t base ⟨false, [.name u.hintName], false⟩ u.source).mapError
      (.storage (k.filePath u.hintName)) := by
  have hname := h.generated.sourceName
  have hlength : byteLength u.hintName ≤ Way.longest := h.short.trans (by decide)
  exact write_eq_writeText hname.plainName hname.null hlength hbase t

/-- Where there is no file, one is made. -/
theorem Regenerable.write_of_absent (h : k.Regenerable t u) (hbase : k.directory = some base)
    (habsent : t.lookup (base ++ [u.hintName]) = none) : ∃ t' o, k.write t u = .ok (t', o) := by
  have hmissing := FileTree.absence_eq_missing.2 h.short
  have hexisting : existing t base ⟨false, [.name u.hintName], false⟩ = .ok none := by
    rw [existing, FileTree.read_name, habsent]
    simp only [hmissing]
  rw [h.write_eq hbase, writeText, hexisting, ok_bind, if_neg (by simp), FileTree.write_name,
    habsent]
  simp only [hmissing, if_true]
  exact ⟨_, _, rfl⟩

theorem Regenerable.write_of_readable (h : k.Regenerable t u) (hbase : k.directory = some base)
    (hreadable : k.Readable t u) : ∃ t' o, k.write t u = .ok (t', o) := by
  rw [readable_iff hbase] at hreadable
  cases hfile : t.lookup (base ++ [u.hintName]) with
  | none => exact h.write_of_absent hbase hfile
  | some entry =>
    cases entry with
    | directory => exact absurd hfile (h.noDirectory _ (place?_eq hbase u))
    | file bytes =>
      obtain ⟨text, htext⟩ := hreadable bytes hfile
      have hname := h.generated.sourceName
      have hlength : byteLength u.hintName ≤ Way.longest := h.short.trans (by decide)
      rw [← htext] at hfile
      exact write_of_file hname.plainName hname.null hlength hbase hfile

/-- A file whose bytes are no text blocks the write. -/
theorem Regenerable.write_of_unreadable (h : k.Regenerable t u) (hbase : k.directory = some base)
    (hblocked : ¬ k.Readable t u) :
    k.write t u = .error (.storage (k.filePath u.hintName) .notText) := by
  simp only [readable_iff hbase, not_forall] at hblocked
  obtain ⟨bytes, hfile, hbytes⟩ := hblocked
  have hexisting : existing t base ⟨false, [.name u.hintName], false⟩ = .error .notText := by
    rw [existing, FileTree.read_name, hfile]
    simp only [decode?_eq_none hbytes]
  rw [h.write_eq hbase, writeText, hexisting]
  rfl

theorem Regenerable.exists_write_iff (h : k.Regenerable t u) (hbase : k.directory = some base) :
    (∃ t' o, k.write t u = .ok (t', o)) ↔ k.Readable t u := by
  constructor
  · intro ⟨t', o, hwrite⟩
    by_contra hblocked
    rw [h.write_of_unreadable hbase hblocked] at hwrite
    cases hwrite
  · exact h.write_of_readable hbase

theorem Regenerable.write_eq_error (h : k.Regenerable t u) (hbase : k.directory = some base)
    {f : Failure} (hwrite : k.write t u = .error f) :
    f = .storage (k.filePath u.hintName) .notText := by
  have hblocked : ¬ k.Readable t u := by
    rw [← h.exists_write_iff hbase, hwrite]
    simp
  rw [h.write_of_unreadable hbase hblocked] at hwrite
  exact (Except.error.inj hwrite).symm

/-! ### Runs -/

/-- A write makes no directory, so the units after it stay regenerable. -/
theorem Regenerable.of_write {o : WriteOutcome} (h : k.Regenerable t v)
    (hname : PlainName u.hintName) (hwrite : k.write t u = .ok (t', o)) : k.Regenerable t' v where
  generated := h.generated
  short := h.short
  noDirectory file hplace hfile :=
    h.noDirectory file hplace ((directory_of_write hname hwrite file).1 hfile)

/-- A write that succeeds leaves every file as readable as it was. -/
theorem readable_iff_of_write {o : WriteOutcome} (hbase : k.directory = some base)
    (hu : k.Regenerable t u) (hwrite : k.write t u = .ok (t', o)) :
    k.Readable t' v ↔ k.Readable t v := by
  have hname := hu.generated.sourceName.plainName
  by_cases hsame : k.place? v = k.place? u
  · -- the file that was written could be read before, and holds a source now
    have hbefore := (hu.exists_write_iff hbase).1 ⟨t', o, hwrite⟩
    have hafter := (holds_of_write hname hwrite).readable
    rw [Readable, ← hsame] at hbefore hafter
    exact iff_of_true hafter hbefore
  · refine forall₃_congr fun file bytes hplace => ?_
    rw [lookup_of_write hname hwrite fun hfile => hsame (hplace.trans hfile.symm)]

theorem exists_writeAll_iff (hbase : k.directory = some base) {units : List SourceUnit}
    (h : ∀ u ∈ units, k.Regenerable t u) :
    (∃ t' os, k.writeAll t units = (t', .ok os)) ↔ ∀ u ∈ units, k.Readable t u := by
  simp only [writeAll_eq_ok]
  induction units generalizing t with
  | nil => exact iff_of_true ⟨t, [], .nil t⟩ (by simp)
  | cons u units ih =>
    obtain ⟨hu, hunits⟩ := List.forall_mem_cons.1 h
    have hname := hu.generated.sourceName.plainName
    have hlater : ∀ {made o}, k.write t u = .ok (made, o) →
        ((∃ t' os, k.Writes made units t' os) ↔ ∀ v ∈ units, k.Readable t v) := by
      intro made o hwrite
      rw [ih fun v hv => (hunits v hv).of_write hname hwrite]
      exact forall₂_congr fun v _ => readable_iff_of_write hbase hu hwrite
    rw [List.forall_mem_cons]
    constructor
    · intro ⟨t', os, hwrites⟩
      cases hwrites with
      | cons head tail =>
        exact ⟨(hu.exists_write_iff hbase).1 ⟨_, _, head⟩, (hlater head).1 ⟨_, _, tail⟩⟩
    · intro ⟨hreadable, hrest⟩
      obtain ⟨made, o, hwrite⟩ := hu.write_of_readable hbase hreadable
      obtain ⟨t', os, hwrites⟩ := (hlater hwrite).2 hrest
      exact ⟨t', o :: os, .cons hwrite hwrites⟩

/-- A file from before blocks the write of a unit exactly where its bytes are no text, and a run
exactly where the file of one of its units does. Any other write succeeds and leaves the source in
the file. -/
theorem regenerates_iff {k : Sink} {base : Path} (hbase : k.directory = some base) :
    (∀ t u, k.Regenerable t u →
      ((∃ t' o, k.write t u = .ok (t', o)) ↔ k.Readable t u) ∧
      (∀ t' o, k.write t u = .ok (t', o) → k.Holds t' u ∧
        ∀ q, k.place? u ≠ some q → t'.lookup q = t.lookup q) ∧
      ∀ f, k.write t u = .error f → f = .storage (k.filePath u.hintName) .notText) ∧
    ∀ t units, (∀ u ∈ units, k.Regenerable t u) →
      ((∃ t' os, k.writeAll t units = (t', .ok os)) ↔ ∀ u ∈ units, k.Readable t u) := by
  refine ⟨fun t u h => ⟨h.exists_write_iff hbase, fun t' o hwrite => ?_, fun f hwrite => ?_⟩,
    fun t units h => exists_writeAll_iff hbase h⟩
  · have hname := h.generated.sourceName.plainName
    exact ⟨holds_of_write hname hwrite, fun q hq => lookup_of_write hname hwrite hq⟩
  · exact h.write_eq_error hbase hwrite

/-! ### A file that blocks -/

/-- The scratch directory with a file from before that is no text. -/
def staleTree : FileTree :=
  Scratch.tree.put (Scratch.path ++ ["A.g.cs".toList]) (.file ⟨#[0xFF]⟩)

theorem regenerable_staleTree {u : SourceUnit} (hu : u ∈ [loneUnit "A", loneUnit "B"]) :
    scratchSink.Regenerable staleTree u := by
  have hplaces : ∀ u ∈ [loneUnit "A", loneUnit "B"], byteLength u.hintName ≤ Path.longestName ∧
      staleTree.lookup (Scratch.path ++ [u.hintName]) ≠ some .directory := by decide
  obtain ⟨hshort, hplace⟩ := hplaces u hu
  refine ⟨generated_loneUnit hu, hshort, fun file hfile => ?_⟩
  rw [place?_eq rfl] at hfile
  rw [← Option.some.inj hfile]
  exact hplace

theorem not_readable_staleTree : ¬ scratchSink.Readable staleTree (loneUnit "A") := by
  rw [readable_iff rfl]
  intro h
  have hbytes : ¬ IsEncoding ⟨#[0xFF]⟩ := by decide +kernel
  exact hbytes (h _ (by decide))

/-- A file from before can block the write of its unit. -/
theorem exists_blocked : ¬ ∀ (k : Sink) (t : FileTree) (base : Path) (u : SourceUnit),
    k.directory = some base → u.Generated → byteLength u.hintName ≤ Path.longestName →
    (t.lookup (base ++ [u.hintName]) = none ∨
      ∃ bytes, t.lookup (base ++ [u.hintName]) = some (.file bytes)) →
    ∃ t' o, k.write t u = .ok (t', o) ∧
      t'.lookup (base ++ [u.hintName]) = some (.file (encode u.source)) := by
  intro h
  have hregenerable := regenerable_staleTree (List.mem_cons_self : loneUnit "A" ∈ _)
  obtain ⟨t', o, hwrite, -⟩ := h scratchSink staleTree Scratch.path (loneUnit "A") rfl
    hregenerable.generated hregenerable.short (Or.inr ⟨⟨#[0xFF]⟩, by decide⟩)
  exact not_readable_staleTree ((hregenerable.exists_write_iff rfl).1 ⟨t', o, hwrite⟩)

/-- The file of one unit blocks its write and every run with it; the other unit has no file yet. -/
theorem regenerates_staleTree :
    scratchSink.directory = some Scratch.path ∧
    scratchSink.Regenerable staleTree (loneUnit "A") ∧
    scratchSink.Regenerable staleTree (loneUnit "B") ∧
    scratchSink.write staleTree (loneUnit "A") =
      .error (.storage "./A.g.cs".toList .notText) ∧
    (∃ t' o, scratchSink.write staleTree (loneUnit "B") = .ok (t', o)) ∧
    ¬ ∃ t' os, scratchSink.writeAll staleTree [loneUnit "B", loneUnit "A"] = (t', .ok os) := by
  have hA := regenerable_staleTree (List.mem_cons_self : loneUnit "A" ∈ _)
  have hB : scratchSink.Regenerable staleTree (loneUnit "B") := regenerable_staleTree (by simp)
  obtain ⟨hone, hrun⟩ := regenerates_iff (rfl : scratchSink.directory = some Scratch.path)
  obtain ⟨hwritten, -, hfailed⟩ := hone staleTree (loneUnit "A") hA
  refine ⟨rfl, hA, hB, ?_, ?_, ?_⟩
  · cases hwrite : scratchSink.write staleTree (loneUnit "A") with
    | ok r => exact absurd (hwritten.1 ⟨r.1, r.2, hwrite⟩) not_readable_staleTree
    | error f =>
      have hpath : scratchSink.filePath (loneUnit "A").hintName = "./A.g.cs".toList := by decide
      rw [hfailed f hwrite, hpath]
  · refine (hone staleTree (loneUnit "B") hB).1.2 ((readable_iff rfl).2 fun bytes hfile => ?_)
    have habsent : staleTree.lookup (Scratch.path ++ [(loneUnit "B").hintName]) = none := by decide
    rw [habsent] at hfile
    cases hfile
  · rw [hrun staleTree [loneUnit "B", loneUnit "A"] (by simp [hA, hB])]
    intro h
    exact not_readable_staleTree (h _ (by simp))

end Sink
end TypedId
