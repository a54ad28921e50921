import TypedId.Settings.Merge
import TypedId.Settings.Quoting
import TypedId.Text.Blank

/-!
# Settings in variables

A variable whose name starts with the prefix, in any case of letters, gives a setting. The rest of
its name is a path of keys with dots between them. Its value is read as a value if it is one as a
whole, and otherwise stands as text.
-/

namespace TypedId.Settings.Environment

/-- What the names of variables with settings start with. -/
def namePrefix : Text := "STRONGLY_".toList

/-- The white space around values. -/
def isSpace (c : Char) : Bool := c = ' ' || c = '\t' || c = '\n' || c = '\r' || c = '\x0c'

def skipSpace (s : Text) : Text := s.dropWhile isSpace

/-- A character that ends a plain word. -/
def isSeparator (c : Char) : Bool :=
  c = ',' || c = '\x7b' || c = '\x7d' || c = '[' || c = ']'

/-- A word as a number, if it is one. Without a point it is an integer of 64 bits, with a sign if
there is a minus. -/
def wordValue (word : Text) : Value :=
  match if '.' ∈ word then Decimal.readFloat? word else none with
  | some x => .real x
  | none =>
    match Decimal.readInt? word with
    | some z =>
      if word.head? ≠ some '-' ∧ z < Int.pow 2 64 then .natural z.toNat
      else if -Int.pow 2 63 ≤ z ∧ z ≤ 0 then .integer z
      else .text word
    | none => .text word

/-- Reads at most `fuel` items and the mark that closes them. A comma may stand before it. -/
def items {α : Type} (item : Text → Option (α × Text)) (close : Char) :
    Nat → Text → Option (List α × Text)
  | 0, _ => none
  | fuel + 1, s =>
    if s.head? = some close then some ([], s.drop 1)
    else do
      let (x, s) ← item s
      match s with
      | ',' :: rest => (items item close fuel rest).map fun r => (x :: r.1, r.2)
      | c :: rest => if c = close then some ([x], rest) else none
      | [] => none

/-- As much of a text as has at most `limit` bytes. -/
def bytesUpTo (limit : Nat) : Text → Text
  | [] => []
  | c :: s => if c.utf8Size ≤ limit then c :: bytesUpTo (limit - c.utf8Size) s else []

/-- A text between double quotes, after the first of them. Of what stands before the first escape
only as many bytes are kept as there are characters, so plain ASCII is kept whole. -/
def quotedValue? (s : Text) : Option (Text × Text) :=
  let lead := s.takeWhile fun c => c ≠ '"' && c ≠ '\\'
  let escaped := (s.drop lead.length).head? = some '\\'
  (quoted? s).map fun r =>
    (if escaped then bytesUpTo lead.length lead ++ r.1.drop lead.length else r.1, r.2)

/-- A character of a bare key. -/
def isBare (c : Char) : Bool := c.isAlphanum || c = '_' || c = '-'

/-- A key: a bare word or a quoted text. -/
def key? : Text → Option (Text × Text)
  | '"' :: s => quotedValue? s
  | s => if s.takeWhile isBare = [] then none else some (s.takeWhile isBare, s.dropWhile isBare)

/-- A key, an equals sign and a value. -/
def pair? (value : Text → Option (Value × Text)) (s : Text) : Option ((Text × Value) × Text) := do
  let (key, s) ← key? (skipSpace s)
  match skipSpace s with
  | '=' :: rest => (value rest).map fun r => ((key, r.1), r.2)
  | _ => none

/-- Lets white space stand around what a reader reads. -/
def spaced (read : Text → Option (Value × Text)) (s : Text) : Option (Value × Text) :=
  (read (skipSpace s)).map fun r => (r.1, skipSpace r.2)

/-- An item without white space around it, in which lists and tables nest at most `depth` deep. -/
def itemTo : Nat → Text → Option (Value × Text)
  | _, 't' :: 'r' :: 'u' :: 'e' :: s => some (.bool true, s)
  | _, 'f' :: 'a' :: 'l' :: 's' :: 'e' :: s => some (.bool false, s)
  | _, '"' :: s => (quotedValue? s).map fun r => (.text r.1, r.2)
  | _, '\'' :: c :: '\'' :: s => some (.text [c], s)
  | _, '\'' :: _ => none
  | depth + 1, '[' :: s =>
    (items (spaced (itemTo depth)) ']' (s.length + 1) s).map fun r => (.list r.1, r.2)
  | depth + 1, '\x7b' :: s =>
    (items (pair? (spaced (itemTo depth))) '\x7d' (s.length + 1) s).map fun r => (Value.tableOf r.1, r.2)
  | _, s => some (wordValue (Text.trim (s.takeWhile (!isSeparator ·))), s.dropWhile (!isSeparator ·))

/-- The value of a variable. -/
def readValue (s : Text) : Value :=
  match spaced (itemTo (s.length + 1)) s with
  | some (v, []) => v
  | _ => .text s

/-- The path of keys that a variable's name gives. -/
def path? (name : Text) : Option (List Text) :=
  let name := Text.trim name
  if (name.take namePrefix.length).map Char.toUpper = namePrefix then
    let parts := (Text.trim (name.drop namePrefix.length)).splitOn '.'
    if parts.any List.isEmpty then none else some (parts.map (·.map Char.toLower))
  else none

/-- Sets a variable. -/
def set (vars : List (Text × Text)) (name value : Text) : List (Text × Text) :=
  if (vars.lookup name).isSome then
    vars.map fun v => if v.1 = name then (name, value) else v
  else vars ++ [(name, value)]

/-- The settings of all variables. Where two say the same thing the later one counts. -/
def read (vars : List (Text × Text)) : Value :=
  vars.foldl (fun done v =>
    match path? v.1 with
    | some path => done.merge .later (Value.nest path (readValue v.2))
    | none => done) (.table [])

end TypedId.Settings.Environment
