import TypedId.Text.Search

/-!
# Quoted settings texts

Readers take the text after an opening quote and give back what it says and the rest after the
closing quote. A backslash starts an escape; controls other than the tab must be escaped.
-/

namespace TypedId.Settings

/-- A character that may stand for itself. -/
def isPlain (c : Char) : Bool := c = '\t' || (0x20 ≤ c.toNat && c.toNat ≠ 0x7F)

/-- The value of a hexadecimal digit. -/
def hexDigit? (c : Char) : Option Nat :=
  if c.isDigit then some (c.toNat - 48)
  else if 'a' ≤ c && c ≤ 'f' then some (c.toNat - 87)
  else if 'A' ≤ c && c ≤ 'F' then some (c.toNat - 55)
  else none

/-- The value of hexadecimal digits. -/
def hexValue? (digits : Text) : Option Nat :=
  digits.foldlM (fun n c => (hexDigit? c).map (16 * n + ·)) 0

/-- The character whose number the first `count` characters are. -/
def coded? (count : Nat) (s : Text) : Option (Char × Text) := do
  let n ← hexValue? (s.take count)
  if h : count ≤ s.length ∧ n.isValidChar then some (Char.ofNatAux n h.2, s.drop count) else none

/-- The character that stands after a backslash. -/
def escape? : Text → Option (Char × Text)
  | 'b' :: s => some ('\x08', s)
  | 't' :: s => some ('\t', s)
  | 'n' :: s => some ('\n', s)
  | 'f' :: s => some ('\x0c', s)
  | 'r' :: s => some ('\r', s)
  | '"' :: s => some ('"', s)
  | '\\' :: s => some ('\\', s)
  | 'u' :: s => coded? 4 s
  | 'U' :: s => coded? 8 s
  | _ => none

/-- Puts a character in front of what was read. -/
def consRead (c : Char) (read : Option (Text × Text)) : Option (Text × Text) :=
  read.map fun r => (c :: r.1, r.2)

/-- Reads at most `fuel` characters of a text between double quotes. -/
def quotedFrom : Nat → Text → Option (Text × Text)
  | 0, _ => none
  | _, [] => none
  | fuel + 1, c :: s =>
    if c = '"' then some ([], s)
    else if c = '\\' then (escape? s).bind fun e => consRead e.1 (quotedFrom fuel e.2)
    else if isPlain c then consRead c (quotedFrom fuel s)
    else none

/-- A text between double quotes. -/
def quoted? (s : Text) : Option (Text × Text) := quotedFrom s.length s

/-- A text between single quotes, where nothing is escaped. -/
def verbatim? (s : Text) : Option (Text × Text) :=
  match s.dropWhile fun c => isPlain c && c ≠ '\'' with
  | '\'' :: rest => some (s.takeWhile fun c => isPlain c && c ≠ '\'', rest)
  | _ => none

end TypedId.Settings
