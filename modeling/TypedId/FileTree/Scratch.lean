import TypedId.FileTree

/-!
# Scratch directories

Work with files happens in a scratch directory, which lies at the top of the tree in the directory for
temporary files. A path given from outside is put behind the full path of a directory, and the two
together may not be too long.
-/

namespace TypedId

/-- The length in bytes of the path `/tmp`. -/
def Path.topLength : Nat := 4

/-- The length in bytes of a full path. -/
def Path.fullLength (p : Path) : Nat :=
  topLength + p.foldr (fun name n => 1 + Text.byteLength name + n) 0

/-- The way of a text behind the full path of a directory. No text at all leads to the directory. -/
def Way.behind (directory : Path) (s : Text) : Except FileFault Way :=
  let w := ofText s
  if w.absolute then parse s
  else if Char.ofNat 0 ∈ s then .error .invalid
  else if longest < directory.fullLength + 1 + Text.byteLength s then .error .nameTooLong
  else .ok ⟨false, directory.map .name ++ w.steps, s = [] || w.closed⟩

namespace Scratch

/-- The place of the scratch directory. Its name has ten bytes, and a slash in it, so that no text
leads to it by name. -/
def path : Path := ["/temporary".toList]

/-- The tree with an empty scratch directory. -/
def tree : FileTree := FileTree.put {} path .directory

/-- The way of a text behind the path of the scratch directory. -/
def way (s : Text) : Except FileFault Way := Way.behind path s

end Scratch
end TypedId
