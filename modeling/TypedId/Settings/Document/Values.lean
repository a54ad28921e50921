import TypedId.Settings.Document.Moments
import TypedId.Settings.Document.Numbers
import TypedId.Settings.Document.Strings
import TypedId.Settings.Document.Tree

/-!
# Values and keys of documents

Arrays may run over several lines and end in a comma; inline tables may not. A key is a bare word
or a string on one line, and dots join keys to a path. Neither values nor paths may be too deep.
-/

namespace TypedId.Settings.Document

/-- How deep arrays and inline tables may nest, and how many keys a path may have. -/
def deepest : Nat := 79

/-- A character of a bare key. -/
def isBare (c : Char) : Bool := c.isAlphanum || c = '_' || c = '-'

/-- A key without dots. -/
def simpleKey? : Text → Option (Text × Text)
  | '"' :: s => quoted? s
  | '\'' :: s => verbatim? s
  | s => if s.takeWhile isBare = [] then none else some (s.takeWhile isBare, s.dropWhile isBare)

/-- Reads at most `fuel` keys with dots between them, and the blanks around them. -/
def keyPathFrom : Nat → Text → Option (List Text × Text)
  | 0, _ => none
  | fuel + 1, s => do
    let (key, s) ← simpleKey? (skipBlank s)
    match skipBlank s with
    | '.' :: rest => (keyPathFrom fuel rest).map fun r => (key :: r.1, r.2)
    | rest => some ([key], rest)

/-- A path of keys. -/
def keyPath? (s : Text) : Option (List Text × Text) := keyPathFrom deepest s

/-- A path, an equals sign and a value; the last key stands apart. -/
def assignment? (value : Text → Option (Value × Text)) (s : Text) :
    Option ((List Text × Text × Value) × Text) := do
  let (path, s) ← keyPath? s
  match s with
  | '=' :: rest =>
    let (v, rest) ← value (skipBlank rest)
    return ((path.dropLast, path.getLastD [], v), rest)
  | _ => none

/-- Reads at most `fuel` elements of an array and its end. -/
def elements (value : Text → Option (Value × Text)) : Nat → Text → Option (List Value × Text)
  | 0, _ => none
  | fuel + 1, s =>
    match skipSpace s with
    | ']' :: rest => some ([], rest)
    | s => do
      let (v, s) ← value s
      match skipSpace s with
      | ']' :: rest => some ([v], rest)
      | ',' :: rest => (elements value fuel rest).map fun r => (v :: r.1, r.2)
      | _ => none

/-- Reads at most `fuel` entries of an inline table and its end, into what is there. -/
def inlineEntries (value : Text → Option (Value × Text)) :
    Nat → Entries → Text → Option (Entries × Text)
  | 0, _, _ => none
  | fuel + 1, entries, s => do
    let ((path, key, v), s) ← assignment? value s
    let entries ← define path key v entries
    match skipBlank s with
    | '\x7d' :: rest => some (entries, rest)
    | ',' :: rest => inlineEntries value fuel entries rest
    | _ => none

/-- A value in which arrays and tables nest at most `depth` deep. -/
def valueTo : Nat → Text → Option (Value × Text)
  | _, '"' :: s => (string? ('"' :: s)).map fun r => (.text r.1, r.2)
  | _, '\'' :: s => (string? ('\'' :: s)).map fun r => (.text r.1, r.2)
  | _, 't' :: 'r' :: 'u' :: 'e' :: s => some (.bool true, s)
  | _, 'f' :: 'a' :: 'l' :: 's' :: 'e' :: s => some (.bool false, s)
  | depth + 1, '[' :: s =>
    (elements (valueTo depth) (s.length + 1) s).map fun r => (.list r.1, r.2)
  | depth + 1, '\x7b' :: s =>
    match skipBlank s with
    | '\x7d' :: rest => some (.table [], rest)
    | s => do
      let (entries, rest) ← inlineEntries (valueTo depth) (s.length + 1) [] s
      return (← (entryValues? entries).bind tableValue?, rest)
  | _, s => (moment? s).or (number? s)

/-- Any value. -/
def value? (s : Text) : Option (Value × Text) := valueTo deepest s

end TypedId.Settings.Document
