import TypedId.Defaults.Loaded

/-!
# Trial runs

A trial loads defaults in a scratch directory of its own with just the variables that it sets.
Whatever its setup names must lie inside the scratch directory.
-/

namespace TypedId.Defaults

/-- What becomes of a failure inside a trial. -/
inductive Handover where
  /-- It is the trial's answer. -/
  | kept
  /-- It fails the trial, as settings sources report it. -/
  | converted
  /-- It fails the trial with its full message. -/
  | worded
deriving DecidableEq, Repr

structure Trial where
  directories : List Text := []
  files : List (Text × Text) := []
  /-- Variables in the order in which they are set. -/
  environment : List (Text × Text) := []
  /-- The current directory; the scratch directory itself if there is none. -/
  current : Option Text := none
  /-- The settings file to load. -/
  path : Option Text := none
  handover : Handover := .kept

namespace Trial

inductive Trouble where
  /-- The trial itself failed. -/
  | failed (message : Text)
  /-- Loading failed and the trial kept the failure. -/
  | refused (failure : Failure)

/-- The message of a trial that failed. -/
def report (reason : Text) : Trouble :=
  .failed ("jailed defaults run failed: ".toList ++ reason)

/-- Why the setup of a trial was refused. -/
def setupReason : FileFault → Text
  | .outside => "Jail: input path is outside of jail directory".toList
  | fault => fault.describe.toList

/-- A path of the setup when nothing is looked up, written anew; it may not lead out of the scratch
directory. -/
def tidied (path : Text) : Except FileFault Text :=
  let w := Way.ofText path
  if w.absolute then .error .outside else .ok (['/'].intercalate w.plainPath)

/-- The way of a path of the setup. -/
def way (path : Text) : Except FileFault Way := do Way.parse (← tidied path)

/-- Makes a directory of the setup. The scratch directory is there. -/
def makeDirectory (t : FileTree) (path : Text) : Except FileFault FileTree := do
  if (← tidied path) = [] then return t
  match t.makeDirectories (Scratch.path.map .name ++ (← way path).steps) with
  | (t, .ok ()) => return t
  | (_, .error fault) => .error fault

/-- The tree with the directories and files of the setup. -/
def setup (trial : Trial) : Except FileFault FileTree := do
  let t ← trial.directories.foldlM makeDirectory Scratch.tree
  trial.files.foldlM (fun (t : FileTree) file => do
    t.write [] Scratch.path (← way file.1) (Text.encode file.2)) t

/-- Loads the defaults in the scratch directory. -/
def run (trial : Trial) : Except Trouble Defaults :=
  let vars := trial.environment.foldl (fun vars v => Settings.Environment.set vars v.1 v.2) []
  let scene : Except FileFault (FileTree × Path) := do
    let t ← trial.setup
    let here ← match trial.current with
      | some path => t.walk [] Scratch.path (← way path).steps
      | none => .ok Scratch.path
    return (t, here)
  match scene with
  | .error fault => .error (report (setupReason fault))
  | .ok (t, here) =>
    match load t here vars trial.path, trial.handover with
    | .ok d, _ => .ok d
    | .error f, .kept => .error (.refused f)
    | .error f, .converted => .error (report f.gatherMessage)
    | .error f, .worded => .error (report f.message)

end Trial
end TypedId.Defaults
