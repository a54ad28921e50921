import TypedId.Failure
import TypedId.Settings.Document
import TypedId.Settings.Environment

/-!
# Layers of settings

Settings are gathered from layers, the lowest first. A layer that cannot be read stops the
gathering.
-/

namespace TypedId.Settings

/-- A layer: what it says, or why it says nothing, and which values are kept where it meets the
layers below. -/
structure Layer where
  content : Except GatherCause (List (Text × Value))
  precedence : Precedence := .later

namespace Layer

/-- A layer that is a document. -/
def ofDocument (s : Text) (precedence : Precedence := .later) : Layer where
  content := match Document.read? s with
    | some entries => .ok entries
    | none => .error .unreadable
  precedence := precedence

/-- A layer that is a value, which must be a table. -/
def ofValue (v : Value) (precedence : Precedence := .later) : Layer where
  content := match v with
    | .table entries => .ok entries
    | v => .error (.mismatch v.describe "map")
  precedence := precedence

def failure? (l : Layer) : Option GatherCause :=
  match l.content with
  | .ok _ => none
  | .error cause => some cause

/-- The entries of a layer; a layer that cannot be read has none. -/
def entries (l : Layer) : List (Text × Value) :=
  match l.content with
  | .ok entries => entries
  | .error _ => []

end Layer

/-- The settings of all layers. Of several layers that cannot be read the lowest is reported; it takes
one other along, so two are counted however many there are. -/
def gather (layers : List Layer) : Except Failure Value :=
  match layers.filterMap Layer.failure? with
  | [cause] => .error (.gathering 1 [] cause)
  | cause :: _ => .error (.gathering 2 [] cause)
  | [] => .ok (layers.foldl (fun below l => below.merge l.precedence (.table l.entries)) (.table []))

/-- The value of a key in gathered settings. -/
def find? (settings : Value) (key : String) : Option Value :=
  match settings with
  | .table entries => entries.lookup key.toList
  | _ => none

end TypedId.Settings
