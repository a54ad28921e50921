import TypedId.Defaults.Gathered
import TypedId.FileTree.Scratch
import TypedId.Text.Bytes

/-!
# Loading defaults

The defaults of a process: variables over a settings file over what is built in. The file is the
one asked for, or else the nearest one of the usual name in the current directory and those around
it.
-/

namespace TypedId.Defaults

/-- The usual name of a settings file. -/
def fileName : Text := "strongly.toml".toList

/-- The directory itself and those around it, the nearest first. -/
def around (here : Path) : List Path :=
  (List.range (here.length + 1)).map fun n => here.take (here.length - n)

/-- The nearest file that a path leads to from one of these directories. Directories do not count. -/
def nearestFile? (t : FileTree) (here : Path) (path : Text) : Option ByteArray :=
  (around here).findSome? fun directory =>
    ((Way.behind directory path).bind (t.read [] [])).toOption

/-- The settings file that counts, if any. One that is asked for must be there, and is then looked for
like one of the usual name. -/
def settingsFile? (t : FileTree) (here : Path) : Option Text → Except Failure (Option ByteArray)
  | none => .ok (nearestFile? t here fileName)
  | some path =>
    match (Way.parse path).bind (t.read [] here) with
    | .ok _ => .ok (nearestFile? t here path)
    | .error _ => .error (.configuration [] (.noFile path))

/-- The layer of a settings file. -/
def fileLayer (content : ByteArray) : Settings.Layer :=
  match Text.decode? content with
  | some s => .ofDocument s
  | none => { content := .error .unreadable }

/-- The defaults of a process in the directory `here` with some variables. -/
def load (t : FileTree) (here : Path) (vars : List (Text × Text)) (path : Option Text) :
    Except Failure Defaults := do
  let file ← settingsFile? t here path
  gathered ((file.map fileLayer).toList ++ [.ofValue (Settings.Environment.read vars)])

end TypedId.Defaults
