import TypedId.Backing
import TypedId.Placeholder

/-!
# Layout of the built-in fragments

The built-in fragments are authored as lists of lines. Three marks stand in them for what differs
from type to type: `§` for the type's name, `¤` for the stored primitive and `∅` for its zero
value.
-/

namespace TypedId

/-- What a backing is to the code around it. -/
inductive Storage where
  /-- A C# value type, which has `TryParse`. -/
  | value
  /-- A string that is always there. -/
  | text
  /-- A string of which the absence means something. -/
  | optionalText
deriving DecidableEq, Repr

namespace Backing

def storage : Backing → Storage
  | guid | int | long | decimal | maskedGuid => .value
  | string => .text
  | nullableString => .optionalText

def isNumeric (b : Backing) : Bool := b matches int | long | decimal

def isGuid (b : Backing) : Bool := b matches guid | maskedGuid

/-- The stored value of a type that was given none. -/
def zero : Backing → String
  | int | long => "0"
  | decimal => "0m"
  | guid | maskedGuid => "System.Guid.Empty"
  | string => "string.Empty"
  | nullableString => "null"

end Backing

namespace Builtin

/-- Lets lines be written as literals. -/
scoped instance : Coe String Text := ⟨String.toList⟩

abbrev Lines := List Text

/-- Moves lines one step to the right. Empty lines stay empty. -/
def indent (lines : Lines) : Lines :=
  lines.map fun line => if line.isEmpty then [] else [' ', ' ', ' ', ' '] ++ line

/-- A head and an indented body between braces. -/
def block (head : Text) (body : Lines) : Lines :=
  [head, ['\x7b']] ++ indent body ++ [['\x7d']]

/-- The same, closed by a semicolon: the cases of an expression. -/
def choice (head : Text) (arms : Lines) : Lines :=
  [head, ['\x7b']] ++ indent arms ++ [['\x7d', ';']]

/-- Groups of lines with an empty line between them. -/
def paragraphs (groups : List Lines) : Lines := List.intercalate [[]] groups

/-- What a character of an authored line stands for. -/
def expand (b : Backing) (c : Char) : Text :=
  if c = '§' then Placeholder.typeToken
  else if c = '¤' then b.primitive.toList
  else if c = '∅' then b.zero.toList
  else [c]

/-- An authored line without its marks. -/
def line (b : Backing) (s : Text) : Text := s.flatMap (expand b)

/-- Authored lines as the text of a section. -/
def written (b : Backing) (lines : Lines) : Text := lines.flatMap fun s => line b s ++ ['\n']

end Builtin
end TypedId
