import TypedId.Settings.Document.Values

/-!
# Settings documents

A settings document is written in TOML 1.0: keys with values, under headers of tables and of arrays
of tables. A document that is not well formed, or defines a key twice, has no entries at all.
-/

namespace TypedId.Settings.Document

/-- One line of a document that says something. -/
inductive Statement where
  /-- Give a key a value; the path leads to its table. -/
  | assign (path : List Text) (key : Text) (value : Value)
  /-- Go on in a table. -/
  | tableHeader (path : List Text)
  /-- Go on in one more table of an array. -/
  | elementHeader (path : List Text)

/-- A header of the given number of brackets, after them. -/
def header? (brackets : Nat) (s : Text) : Option (List Text × Text) := do
  let (path, s) ← keyPath? s
  let rest ← (List.replicate brackets ']').isPrefixOf? s
  return (path, rest)

/-- The statement that starts here, and the next line. -/
def statement? (s : Text) : Option (Statement × Text) :=
  match s with
  | '[' :: '[' :: s => (header? 2 s).bind fun r =>
    (lineEnd? r.2).map fun rest => (.elementHeader r.1, rest)
  | '[' :: s => (header? 1 s).bind fun r =>
    (lineEnd? r.2).map fun rest => (.tableHeader r.1, rest)
  | s => (assignment? value? s).bind fun r =>
    (lineEnd? r.2).map fun rest => (.assign r.1.1 r.1.2.1 r.1.2.2, rest)

/-- Reads at most `fuel` statements. -/
def statementsFrom : Nat → Text → Option (List Statement)
  | 0, _ => none
  | fuel + 1, s =>
    match skipSpace s with
    | [] => some []
    | s => do
      let (first, rest) ← statement? s
      let others ← statementsFrom fuel rest
      return first :: others

/-- The statements of a document. A mark of the byte order may stand in front. -/
def statements? (s : Text) : Option (List Statement) :=
  let s := if s.head? = some '\uFEFF' then s.drop 1 else s
  statementsFrom (s.length + 1) s

/-- A document so far: the header that is open and everything defined. -/
structure State where
  header : List Text := []
  entries : Entries := []

/-- Carries a statement out; none if it defines something twice. -/
def State.apply (st : State) : Statement → Option State
  | .assign path key value =>
    (defineUnder st.header path key value st.entries).map fun entries => { st with entries }
  | .tableHeader path =>
    (openTable path.dropLast (path.getLastD []) st.entries).map fun entries => ⟨path, entries⟩
  | .elementHeader path =>
    (openElement path.dropLast (path.getLastD []) st.entries).map fun entries => ⟨path, entries⟩

/-- The entries of a document. -/
def read? (s : Text) : Option (List (Text × Value)) := do
  let statements ← statements? s
  let st ← statements.foldlM State.apply {}
  entryValues? st.entries

end TypedId.Settings.Document
