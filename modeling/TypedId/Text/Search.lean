/-!
# Substrings

Texts are lists of characters, so that "where does this stand" is a statement about `++`.
`pieces` cuts a text at the occurrences of a token, taken from the left without overlap;
replacing and counting are both read off the pieces.
-/

namespace TypedId

/-- A text, character by character. -/
abbrev Text := List Char

namespace Text

/-- What stands before and after the leftmost occurrence of `needle`. -/
def splitFirst? (needle : Text) : Text → Option (Text × Text)
  | [] => if needle = [] then some ([], []) else none
  | c :: s =>
    match needle.isPrefixOf? (c :: s) with
    | some rest => some ([], rest)
    | none => (splitFirst? needle s).map fun cut => (c :: cut.1, cut.2)

/-- Puts a character in front of the first piece. -/
def consFirst (c : Char) : List Text → List Text
  | [] => [[c]]
  | p :: ps => (c :: p) :: ps

/-- The pieces of a text whose first `skip` characters belong to an occurrence already counted. -/
def piecesFrom (token : Text) : Nat → Text → List Text
  | _, [] => [[]]
  | skip + 1, _ :: s => piecesFrom token skip s
  | 0, c :: s =>
    if token.isPrefixOf (c :: s) then [] :: piecesFrom token (token.length - 1) s
    else consFirst c (piecesFrom token 0 s)

/-- The text cut at every occurrence of a non-empty token. -/
def pieces (token s : Text) : List Text := piecesFrom token 0 s

/-- Every occurrence of a non-empty `token` replaced by `value`. -/
def substitute (token value s : Text) : Text := value.intercalate (pieces token s)

/-- How often `needle` occurs without overlap; the empty text occurs at both ends of every
character. -/
def occurrences (needle s : Text) : Nat :=
  if needle = [] then s.length + 1 else (pieces needle s).length - 1

/-- Whether `needle` occurs at all. -/
def occursIn (needle s : Text) : Bool := (splitFirst? needle s).isSome

/-- The number of bytes of the UTF-8 form. -/
def byteLength (s : Text) : Nat := s.foldr (fun c n => c.utf8Size + n) 0

end Text
end TypedId
