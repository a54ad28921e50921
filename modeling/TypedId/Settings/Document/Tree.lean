import TypedId.Association
import TypedId.Settings.Value

/-!
# Trees of documents

What a document has defined so far. A table remembers what brought it about, because a header may
open a table only once, and a dotted key may only add to tables that dotted keys made.
-/

namespace TypedId.Settings.Document

/-- What brought a table about. -/
inductive Origin where
  /-- A header of its own. -/
  | header
  /-- The header of a table inside it. -/
  | implied
  /-- A dotted key. -/
  | dotted
deriving DecidableEq, Repr

inductive Node where
  | value (value : Value)
  | table (origin : Origin) (entries : List (Text × Node))
  /-- An array of tables, the newest first. -/
  | tables (newest : List (Text × Node)) (older : List (List (Text × Node)))
deriving Inhabited

/-- The entries of one table. -/
abbrev Entries := List (Text × Node)

/-- The entries with a node in place of what the key held before. -/
def Entries.put (entries : Entries) (key : Text) (node : Node) : Entries :=
  entries.map (fun e => if e.1 = key then (key, node) else e)
    ++ if (entries.lookup key).isNone then [(key, node)] else []

/-- Edits the table at the end of a path and makes the tables on the way that are not there.
`byKey` says that a dotted key goes the way, which may not go through a table with a header. The
edit is told the origin of the table. -/
def alter (byKey : Bool) (edit : Origin → Entries → Option Entries) :
    List Text → Origin → Entries → Option Entries
  | [], origin, entries => edit origin entries
  | key :: path, _, entries =>
    match entries.lookup key with
    | none =>
      let origin : Origin := if byKey then .dotted else .implied
      (alter byKey edit path origin []).map fun inner => entries.put key (.table origin inner)
    | some (.table origin inner) =>
      if byKey && origin = .header then none
      else (alter byKey edit path origin inner).map fun inner =>
        entries.put key (.table origin inner)
    | some (.tables newest older) =>
      (alter byKey edit path .header newest).map fun newest => entries.put key (.tables newest older)
    | some (.value _) => none

/-- Defines a key of a table. The last table that a dotted key goes through must be made by one. -/
def define (path : List Text) (key : Text) (value : Value) (entries : Entries) : Option Entries :=
  let edit (origin : Origin) (entries : Entries) : Option Entries :=
    if path ≠ [] ∧ origin ≠ .dotted then none
    else if (entries.lookup key).isSome then none
    else some (entries.put key (.value value))
  alter true edit path .header entries

/-- Opens the table of a header. Only a table that other headers implied may be there. -/
def openTable (path : List Text) (key : Text) (entries : Entries) : Option Entries :=
  let edit (_ : Origin) (entries : Entries) : Option Entries :=
    match entries.lookup key with
    | none => some (entries.put key (.table .header []))
    | some (.table .implied inner) => some (entries.put key (.table .header inner))
    | some _ => none
  alter false edit path .header entries

/-- Opens one more table of an array. -/
def openElement (path : List Text) (key : Text) (entries : Entries) : Option Entries :=
  let edit (_ : Origin) (entries : Entries) : Option Entries :=
    match entries.lookup key with
    | none => some (entries.put key (.tables [] []))
    | some (.tables newest older) => some (entries.put key (.tables [] (newest :: older)))
    | some _ => none
  alter false edit path .header entries

/-- Defines a key under the header that is open. -/
def defineUnder (header path : List Text) (key : Text) (value : Value) (entries : Entries) :
    Option Entries :=
  alter false (fun _ => define path key value) header .header entries

/-! ### Values -/

/-- A table with this key stands for the value of the key, whatever else it holds. -/
def innerKey : Text := "___figment_value_value".toList

/-- A key that only the whole document may have. -/
def reservedKey : Text := "___figment_value_id".toList

/-- The value of a table inside a document. -/
def tableValue? (entries : List (Text × Value)) : Option Value :=
  if (entries.lookup reservedKey).isSome then none
  else some ((entries.lookup innerKey).getD (.table entries))

mutual

def Node.toValue? : Node → Option Value
  | .value v => some v
  | .table _ entries => (entryValues? entries).bind tableValue?
  | .tables newest older => do
    let olderValues ← tableValues? older
    let newestValue ← (entryValues? newest).bind tableValue?
    return .list (olderValues ++ [newestValue])

def entryValues? : List (Text × Node) → Option (List (Text × Value))
  | [] => some []
  | (key, node) :: entries => do
    let value ← node.toValue?
    let others ← entryValues? entries
    return (key, value) :: others

/-- The older tables of an array, the oldest first. -/
def tableValues? : List (List (Text × Node)) → Option (List Value)
  | [] => some []
  | entries :: older => do
    let before ← tableValues? older
    let value ← (entryValues? entries).bind tableValue?
    return before ++ [value]

end

end TypedId.Settings.Document
