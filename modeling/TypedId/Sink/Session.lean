import TypedId.Sink

/-!
# Sessions

A sequence of steps in one scratch directory with at most one sink: what hosts do with sinks, and what else
happens to the files meanwhile.
-/

namespace TypedId

inductive Sink.Action where
  /-- Open a sink in place of the one before. -/
  | openAt (root : Text)
  | write (unit : SourceUnit)
  | writeAll (units : List SourceUnit)
  /-- Put a file there from outside. -/
  | put (path : Text) (content : ByteArray)
  | makeDirectory (path : Text)
  | remove (path : Text)
  | read (path : Text)
  | list

inductive Sink.Reply where
  | opened (root : Text)
  | outcome (outcome : WriteOutcome)
  | outcomes (outcomes : List WriteOutcome)
  | done
  | content (text : Option Text)
  | listing (lines : List Text)
  /-- The sink failed. -/
  | failed (failure : Failure)
  /-- Something from outside could not be done. -/
  | refused (fault : FileFault)
  /-- There is no sink to write to. -/
  | noSink

structure Session where
  tree : FileTree := Scratch.tree
  sink : Option Sink := none

namespace Session

/-- Carries one action out. -/
def step (s : Session) : Sink.Action → Session × Sink.Reply
  | .openAt root =>
    match Sink.openAt s.tree root with
    | (tree, .ok sink) => (⟨tree, some sink⟩, .opened sink.root)
    | (tree, .error f) => ({ s with tree }, .failed f)
  | .write unit =>
    match s.sink with
    | none => (s, .noSink)
    | some sink =>
      match sink.write s.tree unit with
      | .ok (tree, outcome) => ({ s with tree }, .outcome outcome)
      | .error f => (s, .failed f)
  | .writeAll units =>
    match s.sink with
    | none => (s, .noSink)
    | some sink =>
      match sink.writeAll s.tree units with
      | (tree, .ok outcomes) => ({ s with tree }, .outcomes outcomes)
      | (tree, .error f) => ({ s with tree }, .failed f)
  | .put path content =>
    match (Scratch.way path).bind (s.tree.write [] [] · content) with
    | .ok tree => ({ s with tree }, .done)
    | .error fault => (s, .refused fault)
  | .makeDirectory path =>
    match (Scratch.way path).map fun w => s.tree.makeDirectories w.steps with
    | .ok (tree, .ok ()) => ({ s with tree }, .done)
    | .ok (tree, .error fault) => ({ s with tree }, .refused fault)
    | .error fault => (s, .refused fault)
  | .remove path =>
    match (Scratch.way path).map s.tree.remove with
    | .ok (tree, result) =>
      let after : Session := ⟨tree, s.sink.map (·.afterRemoval tree)⟩
      match result with
      | .ok () => (after, .done)
      | .error fault => (after, .refused fault)
    | .error fault => (s, .refused fault)
  | .read path =>
    (s, .content (((Scratch.way path).bind (s.tree.read [] [])).toOption.bind Text.decode?))
  | .list => (s, .listing (s.tree.listing Scratch.path))

/-- Carries actions out in order and collects the replies. -/
def run (s : Session) : List Sink.Action → List Sink.Reply
  | [] => []
  | a :: rest => (s.step a).2 :: run (s.step a).1 rest

end Session
end TypedId
