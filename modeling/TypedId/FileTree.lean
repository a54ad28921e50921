import TypedId.Association
import TypedId.FileTree.Fault
import TypedId.FileTree.Way

/-!
# File trees

Directories and files by their paths. The view of a tree is `lookup`; the top is always a directory.
Operations follow a way step by step from the directory `base`, never leave the directory `floor`,
and report the first step that cannot be made.
-/

namespace TypedId

inductive Entry where
  | directory
  | file (content : ByteArray)

instance : DecidableEq Entry
  | .directory, .directory => isTrue rfl
  | .directory, .file _ => isFalse Entry.noConfusion
  | .file _, .directory => isFalse Entry.noConfusion
  | .file x, .file y => decidable_of_iff (x.data = y.data)
    ⟨fun h => congrArg _ (ByteArray.ext h), fun h => by cases h; rfl⟩

structure FileTree where
  entries : List (Path × Entry) := []

namespace FileTree

/-- What stands at a path. -/
def lookup (t : FileTree) (p : Path) : Option Entry :=
  if p = [] then some .directory else t.entries.lookup p

/-- Puts an entry at a path, in place of an older one. -/
def put (t : FileTree) (p : Path) (e : Entry) : FileTree :=
  ⟨(p, e) :: t.entries.filter (·.1 ≠ p)⟩

/-- Takes away what stands at a path and everything below. -/
def removeAt (t : FileTree) (p : Path) : FileTree :=
  ⟨t.entries.filter fun e => !p.isPrefixOf e.1⟩

/-- Takes away everything below a path. -/
def clear (t : FileTree) (p : Path) : FileTree :=
  ⟨t.entries.filter fun e => e.1 = p || !p.isPrefixOf e.1⟩

theorem lookup_put (t : FileTree) (p q : Path) (e : Entry) (hp : p ≠ []) :
    (t.put p e).lookup q = if q = p then some e else t.lookup q := by
  simp only [lookup, put, lookup_cons_eq, lookup_filter_ne]
  by_cases hq : q = p
  · simp [hq, hp]
  · simp [hq]

/-- Why there is nothing of a name: it is not there, or could not be. -/
def absence (name : Text) : FileFault :=
  if Path.longestName < Text.byteLength name then .nameTooLong else .missing

/-! ### Following a way -/

/-- The directory that one step leads to. -/
def enter (t : FileTree) (floor here : Path) : Step → Except FileFault Path
  | .stay => .ok here
  | .up => if here = floor then .error .outside else .ok here.dropLast
  | .name name =>
    match t.lookup (here ++ [name]) with
    | some .directory => .ok (here ++ [name])
    | some (.file _) => .error .notDirectory
    | none => .error (absence name)

/-- The directory that some steps lead to. -/
def walk (t : FileTree) (floor here : Path) (steps : List Step) : Except FileFault Path :=
  steps.foldlM (t.enter floor) here

/-- Where a way ends: at a directory, or at a name in a directory that may have something of that
name. -/
def target (t : FileTree) (floor base : Path) (w : Way) : Except FileFault (Path × Option Text) :=
  if w.absolute then .error .outside
  else
    match w.steps.getLast? with
    | none => .ok (base, none)
    | some last => do
      let here ← t.walk floor base w.steps.dropLast
      match last with
      | .name name => return (here, some name)
      | step => return (← t.enter floor here step, none)

/-- The content of the file at the end of a way. -/
def read (t : FileTree) (floor base : Path) (w : Way) : Except FileFault ByteArray := do
  match ← t.target floor base w with
  | (_, none) => .error .isDirectory
  | (here, some name) =>
    match t.lookup (here ++ [name]) with
    | some (.file content) => if w.closed then .error .notDirectory else .ok content
    | some .directory => .error .isDirectory
    | none => .error (absence name)

/-- Gives the file at the end of a way a content, and makes it if need be. -/
def write (t : FileTree) (floor base : Path) (w : Way) (content : ByteArray) :
    Except FileFault FileTree := do
  match ← t.target floor base w with
  | (_, none) => .error .isDirectory
  | (here, some name) =>
    if w.closed then .error .isDirectory
    else
      match t.lookup (here ++ [name]) with
      | some .directory => .error .isDirectory
      | some (.file _) => .ok (t.put (here ++ [name]) (.file content))
      | none =>
        if absence name = .missing then .ok (t.put (here ++ [name]) (.file content))
        else .error (absence name)

/-- Makes the directory at the end of some steps; the one around it must be there. -/
def makeDirectory (t : FileTree) (steps : List Step) : Except FileFault FileTree := do
  let here ← t.walk [] [] steps.dropLast
  match steps.getLast? with
  | some (.name name) =>
    match t.lookup (here ++ [name]) with
    | some _ => .error .taken
    | none =>
      if absence name = .missing then .ok (t.put (here ++ [name]) .directory)
      else .error (absence name)
  | _ => .error .taken

/-- Makes a directory, unless there is one. -/
def ensureDirectory (t : FileTree) (steps : List Step) : Except FileFault FileTree :=
  match t.makeDirectory steps, t.walk [] [] steps with
  | .error .taken, .ok _ => .ok t
  | result, _ => result

/-- Makes the first of the directories, each of which lies in the next one. Where one cannot be made
because the next one is missing, that is made first. What was made before a fault stays. -/
def makeNested (t : FileTree) : List (List Step) → FileTree × Except FileFault Unit
  | [] => (t, .ok ())
  | inner :: outer =>
    match t.ensureDirectory inner with
    | .ok made => (made, .ok ())
    | .error .missing =>
      match makeNested t outer with
      | (t, .error fault) => (t, .error fault)
      | (t, .ok ()) =>
        match t.ensureDirectory inner with
        | .ok made => (made, .ok ())
        | .error fault => (t, .error fault)
    | .error fault => (t, .error fault)

/-- The steps, and what is left of them when more and more of the last ones are not made. Steps that
stay are not counted as steps. -/
def shortened (steps : List Step) : List (List Step) :=
  let moves := steps.filter (· ≠ .stay)
  steps :: ((List.range moves.length).drop 1).reverse.map moves.take

/-- Makes the directory at the end of some steps and those around it. -/
def makeDirectories (t : FileTree) (steps : List Step) : FileTree × Except FileFault Unit :=
  t.makeNested (shortened steps)

/-- Empties a directory, and removes it too if the way to it ends in its name. Where the way leads
through what was in the directory, it is lost by then: the empty directory stays, without a fault. -/
def removeDirectory (t : FileTree) (w : Way) (place : Path) (named : Bool) :
    FileTree × Except FileFault Unit :=
  let emptied := t.clear place
  match emptied.walk [] [] w.steps.dropLast with
  | .error _ => (emptied, .ok ())
  | .ok _ => if named then (emptied.removeAt place, .ok ()) else (emptied, .error .invalid)

/-- Removes the file or directory at the end of a way. -/
def remove (t : FileTree) (w : Way) : FileTree × Except FileFault Unit :=
  match t.target [] [] w with
  | .error fault => (t, .error fault)
  | .ok (here, none) => t.removeDirectory w here false
  | .ok (here, some name) =>
    match t.lookup (here ++ [name]) with
    | some (.file _) =>
      if w.closed then (t, .error .notDirectory) else (t.removeAt (here ++ [name]), .ok ())
    | some .directory => t.removeDirectory w (here ++ [name]) true
    | none => (t, .error (absence name))

/-- One line for an entry: the path, and a slash or the size in bytes. -/
def entryLine (p : Path) (e : Entry) : Text :=
  ['/'].intercalate p ++
    match e with
    | .directory => ['/']
    | .file content => ':' :: Nat.toDigits 10 content.size

/-- A line for every entry below a directory, sorted. -/
def listing (t : FileTree) (directory : Path) : List Text :=
  let lines := t.entries.filterMap fun e =>
    match directory.isPrefixOf? e.1 with
    | none | some [] => none
    | some below => some (entryLine below e.2)
  lines.mergeSort fun a b => !b.lex a fun c d => c.toNat.blt d.toNat

end FileTree
end TypedId
