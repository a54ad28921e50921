import TypedId.Settings.Quoting

/-!
# Blanks and line ends of documents

A line ends at a line feed, with a carriage return before it or not, or at the end of the document.
A comment runs from a number sign to the end of its line.
-/

namespace TypedId.Settings.Document

/-- Drops spaces and tabs. -/
def skipBlank (s : Text) : Text := s.dropWhile fun c => c = ' ' || c = '\t'

/-- The rest after a line feed. -/
def newline? : Text → Option Text
  | '\n' :: s => some s
  | '\r' :: '\n' :: s => some s
  | _ => none

/-- Drops a comment if one stands here. -/
def skipComment : Text → Text
  | '#' :: s => s.dropWhile isPlain
  | s => s

/-- The rest after blanks, a comment and the end of the line. -/
def lineEnd? (s : Text) : Option Text :=
  match skipComment (skipBlank s) with
  | [] => some []
  | s => newline? s

/-- Drops blanks, comments and line ends, in at most `fuel` steps. -/
def skipSpaceFrom : Nat → Text → Text
  | 0, s => s
  | fuel + 1, s =>
    match newline? (skipComment (skipBlank s)) with
    | some rest => skipSpaceFrom fuel rest
    | none => skipComment (skipBlank s)

/-- Drops blanks, comments and line ends. -/
def skipSpace (s : Text) : Text := skipSpaceFrom s.length s

end TypedId.Settings.Document
