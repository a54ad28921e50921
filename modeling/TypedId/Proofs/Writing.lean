import TypedId.Proofs.Outcomes
import TypedId.Sink

/-!
# Writing under a plain name

A plain name has no slash and is no step of its own. The way it writes down is that name in the
sink's directory: a write reads and changes what stands there, and nothing else.
-/

namespace TypedId

/-- A text that names something in a directory. -/
structure PlainName (s : Text) : Prop where
  ne_nil : s ≠ []
  ne_dot : s ≠ ['.']
  ne_dots : s ≠ ['.', '.']
  slash : '/' ∉ s

namespace PlainName

variable {s : Text}

theorem ofText_eq (h : PlainName s) : Way.ofText s = ⟨false, [.name s], false⟩ := by
  have hhead : ¬ s.head? = some '/' := fun e => h.slash (List.mem_of_head? e)
  have hlast : ¬ s.getLast? = some '/' := fun e => h.slash (List.mem_of_getLast? e)
  have hstep : Way.step? s = some (.name s) := by
    rw [Way.step?, if_neg h.ne_nil, if_neg h.ne_dot, if_neg h.ne_dots]
  rw [Way.ofText, List.splitOn_eq_singleton h.slash, List.filterMap_cons_some hstep]
  simp [hhead, hlast]

theorem parse_eq_ok (h : PlainName s) {w : Way} (hw : Way.parse s = .ok w) :
    w = ⟨false, [.name s], false⟩ := by
  rw [Way.parse] at hw
  split at hw
  · cases hw
  · split at hw
    · cases hw
    · rw [if_neg h.ne_nil, h.ofText_eq] at hw
      exact (Except.ok.inj hw).symm

end PlainName

namespace FileTree

variable {t t' : FileTree} {base : Path} {name : Text}

theorem read_name (t : FileTree) (base : Path) (name : Text) :
    t.read base base ⟨false, [.name name], false⟩ =
      match t.lookup (base ++ [name]) with
      | some (.file content) => .ok content
      | some .directory => .error .isDirectory
      | none => .error (absence name) := rfl

theorem write_name (t : FileTree) (base : Path) (name : Text) (content : ByteArray) :
    t.write base base ⟨false, [.name name], false⟩ content =
      match t.lookup (base ++ [name]) with
      | some .directory => .error .isDirectory
      | some (.file _) => .ok (t.put (base ++ [name]) (.file content))
      | none =>
        if absence name = .missing then .ok (t.put (base ++ [name]) (.file content))
        else .error (absence name) := rfl

theorem eq_put_of_write {content : ByteArray}
    (h : t.write base base ⟨false, [.name name], false⟩ content = .ok t') :
    t' = t.put (base ++ [name]) (.file content) := by
  rw [write_name] at h
  split at h
  · cases h
  · exact (Except.ok.inj h).symm
  · split at h
    · exact (Except.ok.inj h).symm
    · cases h

end FileTree

namespace Sink

/-- The bytes of a file are those of a text exactly when they are read as it. -/
theorem existing_eq_some {t : FileTree} {base : Path} {name text : Text} :
    existing t base ⟨false, [.name name], false⟩ = .ok (some text) ↔
      t.lookup (base ++ [name]) = some (.file (Text.encode text)) := by
  rw [existing, FileTree.read_name]
  cases hl : t.lookup (base ++ [name]) with
  | none =>
    by_cases hlong : Path.longestName < Text.byteLength name <;> simp [FileTree.absence, hlong]
  | some e =>
    cases e with
    | directory => simp
    | file content =>
      simp only [Option.some.injEq, Entry.file.injEq]
      constructor
      · intro h
        cases hd : Text.decode? content with
        | none => simp [hd] at h
        | some s =>
          simp only [hd, Except.ok.injEq, Option.some.injEq] at h
          rw [← h]
          exact (Text.encode_of_decode? hd).symm
      · rintro rfl
        rw [Text.decode?_encode]

/-- What a write under a plain name does. -/
inductive Wrote (t : FileTree) (file : Path) (content : ByteArray) :
    FileTree → WriteOutcome → Prop where
  | unchanged (h : t.lookup file = some (.file content)) : Wrote t file content t .unchanged
  | written (h : t.lookup file ≠ some (.file content)) :
    Wrote t file content (t.put file (.file content)) .written

theorem Wrote.lookup_eq {t t' : FileTree} {file : Path} {content : ByteArray} {o : WriteOutcome}
    (h : Wrote t file content t' o) (hne : file ≠ []) {q : Path} (hq : q ≠ file) :
    t'.lookup q = t.lookup q := by
  cases h with
  | unchanged => rfl
  | written => rw [FileTree.lookup_put t file q _ hne, if_neg hq]

theorem write_eq_ok {k : Sink} {t t' : FileTree} {u : SourceUnit} {o : WriteOutcome}
    (hname : PlainName u.hintName) (h : k.write t u = .ok (t', o)) :
    ∃ base, k.directory = some base ∧
      Wrote t (base ++ [u.hintName]) (Text.encode u.source) t' o := by
  rw [write] at h
  obtain ⟨w, hw, hwrite⟩ := bind_eq_ok.1 (mapError_eq_ok.1 h)
  obtain rfl := hname.parse_eq_ok hw
  cases hd : k.directory with
  | none =>
    rw [hd] at hwrite
    cases hwrite
  | some base =>
    rw [hd] at hwrite
    obtain ⟨there, hthere, hwrite⟩ := bind_eq_ok.1 hwrite
    refine ⟨base, rfl, ?_⟩
    split at hwrite
    · next hsame =>
      subst hsame
      cases hwrite
      exact .unchanged (existing_eq_some.1 hthere)
    · next hdiffer =>
      -- the file that stands there, if any, reads as another text, so it has other bytes
      obtain ⟨made, hmade, hwrite⟩ := bind_eq_ok.1 hwrite
      cases hwrite
      obtain rfl := FileTree.eq_put_of_write hmade
      refine .written fun hfile => hdiffer ?_
      rw [existing_eq_some.2 hfile] at hthere
      exact (Except.ok.inj hthere).symm

/-- A write under a plain name that is not too long goes to that name in the sink's directory. -/
theorem write_eq_writeText {k : Sink} {base : Path} {u : SourceUnit} (hname : PlainName u.hintName)
    (hnull : Char.ofNat 0 ∉ u.hintName) (hlength : Text.byteLength u.hintName ≤ Way.longest)
    (hbase : k.directory = some base) (t : FileTree) : k.write t u =
      (writeText t base ⟨false, [.name u.hintName], false⟩ u.source).mapError
        (.storage (k.filePath u.hintName)) := by
  have hparse : Way.parse u.hintName = .ok ⟨false, [.name u.hintName], false⟩ := by
    rw [Way.parse, if_neg hnull, if_neg (by omega), if_neg hname.ne_nil, hname.ofText_eq]
  rw [write, hparse, ok_bind, hbase]

/-- Over a file that holds a text, a write under a plain name that is not too long succeeds. -/
theorem write_of_file {k : Sink} {t : FileTree} {base : Path} {u : SourceUnit} {text : Text}
    (hname : PlainName u.hintName) (hnull : Char.ofNat 0 ∉ u.hintName)
    (hlength : Text.byteLength u.hintName ≤ Way.longest) (hbase : k.directory = some base)
    (hfile : t.lookup (base ++ [u.hintName]) = some (.file (Text.encode text))) :
    ∃ t' o, k.write t u = .ok (t', o) := by
  have hwrite : writeText t base ⟨false, [.name u.hintName], false⟩ u.source =
      if text = u.source then .ok (t, .unchanged)
      else .ok (t.put (base ++ [u.hintName]) (.file (Text.encode u.source)), .written) := by
    rw [writeText, existing_eq_some.2 hfile, FileTree.write_name, hfile]
    simp only [ok_bind, Option.some.injEq]
    split <;> rfl
  rw [write_eq_writeText hname hnull hlength hbase, hwrite]
  split
  · exact ⟨_, _, rfl⟩
  · exact ⟨_, _, rfl⟩

end Sink
end TypedId
