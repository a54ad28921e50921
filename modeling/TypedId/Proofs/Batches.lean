import TypedId.Catalog.Edit
import TypedId.Proofs.HintName
import TypedId.Proofs.NamesFit

/-!
# Batches of writes

A write of a generated unit puts the unit's source at one path of the sink's directory and leaves
everything else alone. So does a run over several units, each at its own path, and a second run
finds all of them unchanged.
-/

namespace TypedId

open Text

/-- A unit that some request gives. -/
def SourceUnit.Generated (u : SourceUnit) : Prop :=
  ∃ (r : Request) (d : Defaults) (c : Catalog), r.generate d c = .ok u

theorem SourceUnit.Generated.sourceName {u : SourceUnit} (h : u.Generated) :
    SourceName u.hintName := by
  obtain ⟨r, d, c, hu⟩ := h
  obtain ⟨s, hs, hhint⟩ := Request.resolve_of_generate hu
  rw [hhint]
  exact (Request.wellNamed_of_resolve hs).1.sourceName

theorem SourceName.null {s : Text} (h : SourceName s) : Char.ofNat 0 ∉ s := by
  intro hm
  rcases h.chars _ hm with hpart | hdot
  · exact absurd hpart (by decide)
  · exact absurd hdot (by decide)

namespace Sink

variable {k : Sink} {t t' : FileTree} {u : SourceUnit}

/-- The path of a unit's file, while the sink has its directory. -/
def place? (k : Sink) (u : SourceUnit) : Option Path := k.directory.map (· ++ [u.hintName])

/-- The unit's file is there, and its bytes are those of the source. -/
def Holds (k : Sink) (t : FileTree) (u : SourceUnit) : Prop :=
  ∃ file, k.place? u = some file ∧ t.lookup file = some (.file (encode u.source))

theorem ne_nil_of_place? {file : Path} (h : k.place? u = some file) : file ≠ [] := by
  obtain ⟨base, -, hfile⟩ := Option.map_eq_some_iff.1 h
  rw [← hfile]
  simp

/-- Units of one sink with different hint names have different files. -/
theorem hintName_of_place? {v : SourceUnit} {file : Path} (hu : k.place? u = some file)
    (hv : k.place? v = some file) : u.hintName = v.hintName := by
  obtain ⟨base, hbase, hfile⟩ := Option.map_eq_some_iff.1 hu
  obtain ⟨base', hbase', hfile'⟩ := Option.map_eq_some_iff.1 hv
  exact List.singleton_inj.1 (List.append_inj' (hfile.trans hfile'.symm) rfl).2

/-! ### One write -/

theorem write_of_holds (hname : PlainName u.hintName) (hnull : Char.ofNat 0 ∉ u.hintName)
    (hlength : byteLength u.hintName ≤ Way.longest) (h : k.Holds t u) :
    k.write t u = .ok (t, .unchanged) := by
  obtain ⟨file, hplace, hfile⟩ := h
  obtain ⟨base, hbase, hjoin⟩ := Option.map_eq_some_iff.1 hplace
  rw [← hjoin] at hfile
  obtain ⟨t', o, hwrite⟩ := write_of_file hname hnull hlength hbase hfile
  obtain ⟨base', hbase', hwrote⟩ := write_eq_ok hname hwrite
  have hsame : base = base' := Option.some.inj (hbase.symm.trans hbase')
  cases hwrote with
  | unchanged => exact hwrite
  | written hdiffers => exact absurd (hsame ▸ hfile) hdiffers

/-- Only what stands at the unit's path counts for a write, and only that changes. No directory
gives way to a file. -/
theorem wrote_of_write {o : WriteOutcome} (hname : PlainName u.hintName)
    (h : k.write t u = .ok (t', o)) : ∃ file, k.place? u = some file ∧
      t.lookup file ≠ some .directory ∧ Wrote t file (encode u.source) t' o := by
  obtain ⟨base, hbase, hwrote⟩ := write_eq_ok hname h
  refine ⟨base ++ [u.hintName], by rw [place?, hbase]; rfl, ?_, hwrote⟩
  intro hdirectory
  obtain ⟨w, hw, hwrite⟩ := bind_eq_ok.1 (mapError_eq_ok.1 h)
  rw [hname.parse_eq_ok hw, hbase] at hwrite
  obtain ⟨there, hthere, -⟩ := bind_eq_ok.1 hwrite
  rw [existing, FileTree.read_name, hdirectory] at hthere
  cases hthere

/-- The name of a unit that was written is no longer than a way may be. -/
theorem byteLength_le_of_write {o : WriteOutcome} (h : k.write t u = .ok (t', o)) :
    byteLength u.hintName ≤ Way.longest := by
  obtain ⟨w, hw, -⟩ := bind_eq_ok.1 (mapError_eq_ok.1 h)
  rw [Way.parse] at hw
  split at hw
  · cases hw
  · split at hw
    · cases hw
    · omega

theorem holds_of_write {o : WriteOutcome} (hname : PlainName u.hintName)
    (h : k.write t u = .ok (t', o)) : k.Holds t' u := by
  obtain ⟨file, hplace, -, hwrote⟩ := wrote_of_write hname h
  refine ⟨file, hplace, ?_⟩
  cases hwrote with
  | unchanged hfound => exact hfound
  | written => rw [FileTree.lookup_put t _ _ _ (ne_nil_of_place? hplace), if_pos rfl]

theorem lookup_of_write {o : WriteOutcome} (hname : PlainName u.hintName)
    (h : k.write t u = .ok (t', o)) {q : Path} (hq : k.place? u ≠ some q) :
    t'.lookup q = t.lookup q := by
  obtain ⟨file, hplace, -, hwrote⟩ := wrote_of_write hname h
  apply hwrote.lookup_eq (ne_nil_of_place? hplace)
  intro hsame
  exact hq (hsame ▸ hplace)

theorem directory_of_write {o : WriteOutcome} (hname : PlainName u.hintName)
    (h : k.write t u = .ok (t', o)) (q : Path) :
    t'.lookup q = some .directory ↔ t.lookup q = some .directory := by
  obtain ⟨file, hplace, hfile, hwrote⟩ := wrote_of_write hname h
  by_cases hq : q = file
  · obtain ⟨file', hplace', hholds⟩ := holds_of_write hname h
    have hsame : file = file' := Option.some.inj (hplace.symm.trans hplace')
    rw [hq]
    refine iff_of_false ?_ hfile
    rw [hsame, hholds]
    simp
  · rw [hwrote.lookup_eq (ne_nil_of_place? hplace) hq]

/-! ### Runs -/

/-- Writes one after the other that all succeed, with their outcomes. -/
inductive Writes (k : Sink) : FileTree → List SourceUnit → FileTree → List WriteOutcome → Prop where
  | nil (t : FileTree) : Writes k t [] t []
  | cons {t t' t'' : FileTree} {u : SourceUnit} {units : List SourceUnit} {o : WriteOutcome}
    {os : List WriteOutcome} (head : k.write t u = .ok (t', o)) (tail : Writes k t' units t'' os) :
    Writes k t (u :: units) t'' (o :: os)

variable {units : List SourceUnit} {os : List WriteOutcome}

theorem writeAll_of_error {f : Failure} (h : k.write t u = .error f) (units : List SourceUnit) :
    k.writeAll t (u :: units) = (t, .error f) := by
  rw [writeAll, h]

theorem writeAll_of_ok {o : WriteOutcome} (h : k.write t u = .ok (t', o))
    (units : List SourceUnit) :
    k.writeAll t (u :: units) =
      ((k.writeAll t' units).1, (k.writeAll t' units).2.map (o :: ·)) := by
  rw [writeAll, h]

/-- A run that succeeds is a write that succeeds and a run after it that does. -/
theorem writeAll_cons_eq_ok : k.writeAll t (u :: units) = (t', .ok os) ↔ ∃ made o others,
    k.write t u = .ok (made, o) ∧ k.writeAll made units = (t', .ok others) ∧ os = o :: others := by
  cases hu : k.write t u with
  | error f => simp [writeAll_of_error hu]
  | ok r =>
    obtain ⟨made, o⟩ := r
    rw [writeAll_of_ok hu, Prod.mk.injEq, map_eq_ok]
    constructor
    · intro ⟨hfinal, others, hothers, hos⟩
      exact ⟨made, o, others, rfl, Prod.ext hfinal hothers, hos.symm⟩
    · intro ⟨_, _, others, hmade, hrest, hos⟩
      cases hmade
      exact ⟨congrArg Prod.fst hrest, others, congrArg Prod.snd hrest, hos.symm⟩

/-- A run that fails does so at its first write, which leaves the files as they were, or after it. -/
theorem writeAll_cons_eq_error {f : Failure} : k.writeAll t (u :: units) = (t', .error f) ↔
    (k.write t u = .error f ∧ t = t') ∨
      ∃ made o, k.write t u = .ok (made, o) ∧ k.writeAll made units = (t', .error f) := by
  cases hu : k.write t u with
  | error g => simp [writeAll_of_error hu, and_comm]
  | ok r =>
    obtain ⟨made, o⟩ := r
    rw [writeAll_of_ok hu, Prod.mk.injEq, map_eq_error]
    simp [Prod.ext_iff]

theorem writeAll_eq_ok : k.writeAll t units = (t', .ok os) ↔ k.Writes t units t' os := by
  constructor
  · intro h
    induction units generalizing t os with
    | nil =>
      cases h
      exact .nil _
    | cons u units ih =>
      obtain ⟨made, o, others, hu, hrest, rfl⟩ := writeAll_cons_eq_ok.1 h
      exact .cons hu (ih hrest)
  · intro h
    induction h with
    | nil t => rfl
    | cons head tail ih => exact writeAll_cons_eq_ok.2 ⟨_, _, _, head, ih, rfl⟩

/-- A run that fails has written everything before the unit that fails it, and nothing after. -/
theorem writeAll_eq_error {f : Failure} :
    k.writeAll t units = (t', .error f) ↔ ∃ before u after os,
      units = before ++ u :: after ∧ k.Writes t before t' os ∧ k.write t' u = .error f := by
  constructor
  · intro h
    induction units generalizing t with
    | nil => cases h
    | cons u units ih =>
      rcases writeAll_cons_eq_error.1 h with ⟨hu, rfl⟩ | ⟨made, o, hu, hrest⟩
      · exact ⟨[], u, units, [], rfl, .nil _, hu⟩
      · obtain ⟨before, v, after, os, rfl, hwrites, hv⟩ := ih hrest
        exact ⟨u :: before, v, after, o :: os, rfl, .cons hu hwrites, hv⟩
  · intro ⟨before, u, after, os, hunits, hwrites, hu⟩
    subst hunits
    induction hwrites with
    | nil t => exact writeAll_of_error hu after
    | cons head tail ih => exact writeAll_cons_eq_error.2 (.inr ⟨_, _, head, ih hu⟩)

namespace Writes

theorem length_eq (h : k.Writes t units t' os) : os.length = units.length := by
  induction h with
  | nil => rfl
  | cons head tail ih => rw [List.length_cons, List.length_cons, ih]

theorem lookup_eq (h : k.Writes t units t' os) (hnames : ∀ u ∈ units, PlainName u.hintName)
    {q : Path} (hq : ∀ u ∈ units, k.place? u ≠ some q) : t'.lookup q = t.lookup q := by
  induction h with
  | nil => rfl
  | cons head tail ih =>
    rw [List.forall_mem_cons] at hnames hq
    rw [ih hnames.2 hq.2, lookup_of_write hnames.1 head hq.1]

theorem directory_iff (h : k.Writes t units t' os) (hnames : ∀ u ∈ units, PlainName u.hintName)
    (q : Path) : t'.lookup q = some .directory ↔ t.lookup q = some .directory := by
  induction h with
  | nil => rfl
  | cons head tail ih =>
    rw [List.forall_mem_cons] at hnames
    rw [ih hnames.2, directory_of_write hnames.1 head]

/-- What a unit left behind stays there through a run over units of other names. -/
theorem holds (h : k.Writes t units t' os) (hnames : ∀ u ∈ units, PlainName u.hintName)
    (hdiffer : ∀ v ∈ units, v.hintName ≠ u.hintName) (hu : k.Holds t u) : k.Holds t' u := by
  obtain ⟨file, hplace, hfile⟩ := hu
  refine ⟨file, hplace, ?_⟩
  rw [h.lookup_eq hnames, hfile]
  intro v hv hsame
  exact hdiffer v hv (hintName_of_place? hsame hplace)

theorem split {before after : List SourceUnit} (h : k.Writes t (before ++ u :: after) t' os) :
    ∃ mid made o os', k.write mid u = .ok (made, o) ∧ k.Writes made after t' os' := by
  induction before generalizing t os with
  | nil =>
    cases h with
    | cons head tail => exact ⟨_, _, _, _, head, tail⟩
  | cons v before ih =>
    cases h with
    | cons head tail => exact ih tail

/-- Of the units of one name the last one is in the file at the end. -/
theorem holds_last {before after : List SourceUnit} (h : k.Writes t (before ++ u :: after) t' os)
    (hnames : ∀ v ∈ before ++ u :: after, PlainName v.hintName)
    (hlast : ∀ v ∈ after, v.hintName ≠ u.hintName) : k.Holds t' u := by
  obtain ⟨mid, made, o, os', hwrite, hafter⟩ := h.split
  have hu : PlainName u.hintName := hnames u (by simp)
  have hrest : ∀ v ∈ after, PlainName v.hintName := fun v hv => hnames v (by simp [hv])
  exact hafter.holds hrest hlast (holds_of_write hu hwrite)

theorem byteLength_le {v : SourceUnit} (h : k.Writes t units t' os) (hv : v ∈ units) :
    byteLength v.hintName ≤ Way.longest := by
  obtain ⟨before, after, hsplit⟩ := List.append_of_mem hv
  obtain ⟨mid, made, o, os', hwrite, -⟩ := (hsplit ▸ h).split
  exact byteLength_le_of_write hwrite

end Writes

/-- Where every unit's file is as it should be, a run changes nothing. -/
theorem writes_unchanged (h : ∀ u ∈ units, k.write t u = .ok (t, .unchanged)) :
    k.Writes t units t (List.replicate units.length .unchanged) := by
  induction units with
  | nil => exact .nil t
  | cons u units ih =>
    rw [List.forall_mem_cons] at h
    exact .cons h.1 (ih h.2)

/-- What a run over units leaves behind: every file of theirs holds the source of the last unit of
its name, and everything else is as before. -/
structure Delivers (k : Sink) (t : FileTree) (units : List SourceUnit) (t' : FileTree)
    (os : List WriteOutcome) : Prop where
  length_eq : os.length = units.length
  holds_last : ∀ before u after, units = before ++ u :: after →
    (∀ v ∈ after, v.hintName ≠ u.hintName) → k.Holds t' u
  lookup_eq : ∀ q, (∀ u ∈ units, k.place? u ≠ some q) → t'.lookup q = t.lookup q
  directory_iff : ∀ q, t'.lookup q = some .directory ↔ t.lookup q = some .directory

theorem Writes.delivers (h : k.Writes t units t' os) (hunits : ∀ u ∈ units, u.Generated) :
    k.Delivers t units t' os := by
  have hnames : ∀ u ∈ units, PlainName u.hintName := fun u hu => (hunits u hu).sourceName.plainName
  refine ⟨h.length_eq, ?_, fun q => h.lookup_eq hnames, h.directory_iff hnames⟩
  intro before u after hsplit hlast
  subst hsplit
  exact h.holds_last hnames hlast

/-- After a run over units of different names every file is as it should be. -/
theorem Delivers.holds (h : k.Delivers t units t' os) (hdistinct : (units.map (·.hintName)).Nodup)
    (hu : u ∈ units) : k.Holds t' u := by
  obtain ⟨before, after, hsplit⟩ := List.append_of_mem hu
  refine h.holds_last before u after hsplit ?_
  intro v hv hsame
  rw [hsplit, List.map_append, List.map_cons, List.nodup_append, List.nodup_cons] at hdistinct
  apply hdistinct.2.1.1
  rw [← hsame]
  exact List.mem_map_of_mem hv

/-- A second run over units of different names changes nothing. -/
theorem Writes.again (h : k.Writes t units t' os) (hunits : ∀ u ∈ units, u.Generated)
    (hdistinct : (units.map (·.hintName)).Nodup) :
    k.Writes t' units t' (List.replicate units.length .unchanged) := by
  apply writes_unchanged
  intro u hu
  have hname := (hunits u hu).sourceName
  exact write_of_holds hname.plainName hname.null (h.byteLength_le hu)
    ((h.delivers hunits).holds hdistinct hu)

/-- A write finds a unit unchanged exactly where the file has its bytes, otherwise puts them there and
nowhere else, and on a failure leaves the tree alone. Runs go on to the first failure; over units
of different names they leave every source in its file, for a second run to find. -/
theorem writes_faithful (k : Sink) :
    (∀ t u, u.Generated →
      (t.NamesFit → ∀ t', k.write t u = .ok (t', .unchanged) ↔ k.Holds t u ∧ t' = t) ∧
      (∀ t', k.write t u = .ok (t', .written) → k.Holds t' u ∧
        (∀ q, k.place? u ≠ some q → t'.lookup q = t.lookup q) ∧
        ∀ q, t'.lookup q = some .directory ↔ t.lookup q = some .directory) ∧
      ∀ f, k.write t u = .error f → ∀ units, k.writeAll t (u :: units) = (t, .error f)) ∧
    (∀ t units t',
      (∀ os, k.writeAll t units = (t', .ok os) ↔ k.Writes t units t' os) ∧
      ∀ f, k.writeAll t units = (t', .error f) ↔ ∃ before u after os,
        units = before ++ u :: after ∧ k.Writes t before t' os ∧ k.write t' u = .error f) ∧
    ∀ t units t' os, (∀ u ∈ units, u.Generated) → k.Writes t units t' os →
      k.Delivers t units t' os ∧
      ((units.map (·.hintName)).Nodup → (∀ u ∈ units, k.Holds t' u) ∧
        k.writeAll t' units = (t', .ok (List.replicate units.length .unchanged))) := by
  refine ⟨?_, fun t units t' => ⟨fun os => writeAll_eq_ok, fun f => writeAll_eq_error⟩, ?_⟩
  · intro t u hu
    have hsource := hu.sourceName
    have hname := hsource.plainName
    refine ⟨?_, ?_, fun f hf units => writeAll_of_error hf units⟩
    · intro hfit t'
      constructor
      · intro h
        obtain ⟨file, hplace, -, hwrote⟩ := wrote_of_write hname h
        cases hwrote with
        | unchanged hfound => exact ⟨⟨file, hplace, hfound⟩, rfl⟩
      · intro ⟨hholds, hsame⟩
        obtain ⟨file, hplace, hfile⟩ := hholds
        obtain ⟨base, -, hjoin⟩ := Option.map_eq_some_iff.1 hplace
        -- a file of that name is there, so the name is short enough to be looked for
        have hshort : byteLength u.hintName ≤ Path.longestName :=
          hfit base u.hintName (by rw [hjoin, hfile]; simp)
        have hlength : byteLength u.hintName ≤ Way.longest := hshort.trans (by decide)
        rw [hsame]
        exact write_of_holds hname hsource.null hlength ⟨file, hplace, hfile⟩
    · intro t' h
      exact ⟨holds_of_write hname h, fun q hq => lookup_of_write hname h hq,
        directory_of_write hname h⟩
  · intro t units t' os hunits h
    have hdelivers := h.delivers hunits
    refine ⟨hdelivers, fun hdistinct => ⟨fun u hu => hdelivers.holds hdistinct hu, ?_⟩⟩
    exact writeAll_eq_ok.2 (h.again hunits hdistinct)

/-- A catalog with one base and nothing else. -/
def loneCatalog : Catalog := Catalog.build [
  .put (.base .int) { header := "struct \x7b\x7bTYPE\x7d\x7d\x7b\x7bINTERFACES\x7d\x7d".toList
                      members := "\x7b\x7bVALIDATE\x7d\x7d".toList }]

/-- The unit of a type of the given name. -/
def loneUnit (name : String) : SourceUnit where
  hintName := name.toList ++ ".g.cs".toList
  typeName := name.toList
  declarations := [⟨.primary, name.toList, "struct ".toList ++ name.toList ++ "\n\x7b\n\x7d\n".toList⟩]
  diagnostics := []
  source := "// <auto-generated/>\n#nullable enable\n\nstruct ".toList ++ name.toList ++
    "\n\x7b\n\x7d\n".toList

def loneRequest (name : String) : Request where
  name := name.toList
  backing := .explicit .int
  converters := .explicit ∅
  implementations := .explicit ∅

/-- A sink in the scratch directory. -/
def scratchSink : Sink := ⟨".".toList, some Scratch.path⟩

theorem generated_loneUnit {u : SourceUnit} (hu : u ∈ [loneUnit "A", loneUnit "B"]) :
    u.Generated := by
  simp only [List.mem_cons, List.not_mem_nil, or_false] at hu
  rcases hu with hu | hu
  · exact ⟨loneRequest "A", .builtIn, loneCatalog, by rw [hu]; decide +kernel⟩
  · exact ⟨loneRequest "B", .builtIn, loneCatalog, by rw [hu]; decide +kernel⟩

/-- The scratch directory with the files of both units. -/
def bothWritten : FileTree :=
  (Scratch.tree.put (Scratch.path ++ ["A.g.cs".toList]) (.file (encode (loneUnit "A").source))).put
    (Scratch.path ++ ["B.g.cs".toList]) (.file (encode (loneUnit "B").source))

theorem writes_bothWritten :
    Scratch.tree.NamesFit ∧ bothWritten.NamesFit ∧
    scratchSink.Writes Scratch.tree [loneUnit "A", loneUnit "B"] bothWritten
      [.written, .written] ∧
    scratchSink.Holds bothWritten (loneUnit "A") ∧ scratchSink.Holds bothWritten (loneUnit "B") ∧
    scratchSink.write bothWritten (loneUnit "A") = .ok (bothWritten, .unchanged) ∧
    scratchSink.writeAll bothWritten [loneUnit "A", loneUnit "B"] =
      (bothWritten, .ok [.unchanged, .unchanged]) := by
  obtain ⟨hone, hrun, hbatch⟩ := writes_faithful scratchSink
  have hwriteAll : scratchSink.writeAll Scratch.tree [loneUnit "A", loneUnit "B"] =
      (bothWritten, .ok [.written, .written]) := rfl
  have hwrites := ((hrun _ _ _).1 _).1 hwriteAll
  have hfit : bothWritten.NamesFit := by
    have hall := namesFit_writeAll Session.namesFit_scratch scratchSink
      [loneUnit "A", loneUnit "B"]
    rw [hwriteAll] at hall
    exact hall
  have hdistinct : ([loneUnit "A", loneUnit "B"].map (·.hintName)).Nodup := by decide
  obtain ⟨-, hholds⟩ := hbatch _ _ _ _ (fun u hu => generated_loneUnit hu) hwrites
  obtain ⟨hfiles, hagain⟩ := hholds hdistinct
  have hfirst := hfiles (loneUnit "A") List.mem_cons_self
  have hsecond := hfiles (loneUnit "B") (by simp)
  have hunit : (loneUnit "A").Generated := generated_loneUnit List.mem_cons_self
  exact ⟨Session.namesFit_scratch, hfit, hwrites, hfirst, hsecond,
    ((hone bothWritten _ hunit).1 hfit _).2 ⟨hfirst, rfl⟩, hagain⟩

end Sink
end TypedId
