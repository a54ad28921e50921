import TypedId.FileTree.Scratch
import TypedId.Generator
import TypedId.Text.Bytes

/-!
# Sinks

A sink writes source units into one directory, each to the file of its hint name, and leaves a file
alone that has the content already. A sink stays with its directory: once that is removed, nothing
can be written any more, even if another one takes the name.
-/

namespace TypedId

/-- What a write did. -/
inductive WriteOutcome where
  | written
  | unchanged
deriving DecidableEq, Repr

structure Sink where
  /-- The way to the directory, as it was given. -/
  root : Text
  /-- The directory, unless it was removed. -/
  directory : Option Path
deriving DecidableEq

namespace Sink

/-- Opens the directory at the end of a way, and makes it if it is not there. What was made stays
even if the directory cannot be opened. -/
def openDirectory (t : FileTree) (w : Way) : FileTree × Except FileFault Path :=
  if w.absolute then (t, .error .outside)
  else
    match t.walk [] [] w.steps with
    | .error .missing =>
      match t.makeDirectories w.steps with
      | (made, .error fault) => (made, .error fault)
      | (made, .ok ()) => (made, made.walk [] [] w.steps)
    | result => (t, result)

/-- Opens the directory that `root` names in the scratch directory. -/
def openAt (t : FileTree) (root : Text) : FileTree × Except Failure Sink :=
  let (t, result) := match Scratch.way root with
    | .ok w => openDirectory t w
    | .error fault => (t, .error fault)
  match result with
  | .ok here => (t, .ok ⟨root, some here⟩)
  | .error fault => (t, .error (.storage root fault))

/-- The path of a unit's file in reports. -/
def filePath (s : Sink) (hintName : Text) : Text :=
  if hintName.head? = some '/' || s.root = [] then hintName
  else if s.root.getLast? = some '/' then s.root ++ hintName
  else s.root ++ '/' :: hintName

/-- Why nothing can be written in a directory that was removed. -/
def removedFault (w : Way) : FileFault :=
  if w.absolute then .outside
  else
    match w.steps.dropWhile (· = .stay) with
    | .up :: _ => .outside
    | [.name _] => if w.closed then .isDirectory else .missing
    | .name _ :: _ => .missing
    | _ => .isDirectory

/-- The text of the file that a unit goes to; none if there is no such file yet. -/
def existing (t : FileTree) (base : Path) (w : Way) : Except FileFault (Option Text) :=
  match t.read base base w with
  | .ok bytes =>
    match Text.decode? bytes with
    | some text => .ok (some text)
    | none => .error .notText
  | .error .missing => .ok none
  | .error fault => .error fault

/-- Writes a text to a way from the sink's directory, unless it is there already. -/
def writeText (t : FileTree) (base : Path) (w : Way) (text : Text) :
    Except FileFault (FileTree × WriteOutcome) := do
  if (← existing t base w) = some text then return (t, .unchanged)
  else return (← t.write base base w (Text.encode text), .written)

/-- Writes a unit. A fault leaves the tree as it is. -/
def write (s : Sink) (t : FileTree) (u : SourceUnit) : Except Failure (FileTree × WriteOutcome) :=
  let result := do
    let w ← Way.parse u.hintName
    match s.directory with
    | some base => writeText t base w u.source
    | none => .error (removedFault w)
  result.mapError (.storage (s.filePath u.hintName))

/-- Writes units in order up to the first failure. What was written before it stays. -/
def writeAll (s : Sink) (t : FileTree) : List SourceUnit →
    FileTree × Except Failure (List WriteOutcome)
  | [] => (t, .ok [])
  | u :: units =>
    match s.write t u with
    | .error f => (t, .error f)
    | .ok (t, outcome) =>
      let (t, rest) := writeAll s t units
      (t, rest.map (outcome :: ·))

/-- The sink after something was removed from its tree. -/
def afterRemoval (s : Sink) (t : FileTree) : Sink :=
  { s with directory := s.directory.filter fun p => t.lookup p = some .directory }

end Sink
end TypedId
