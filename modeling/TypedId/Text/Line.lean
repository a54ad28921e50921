import TypedId.Text.Blank

/-!
# Lines

A line ends at a line feed; a carriage return directly before it belongs to the line end.
-/

namespace TypedId.Text

/-- Drops one carriage return from the end of a line. -/
def dropReturn (line : Text) : Text :=
  if line.getLast? = some '\r' then line.dropLast else line

/-- The lines of a text. Only a line that a line feed ends loses a carriage return, and an empty
last line is none. -/
def lines (s : Text) : List Text :=
  let all := s.splitOn '\n'
  let last := all.getLastD []
  all.dropLast.map dropReturn ++ if last = [] then [] else [last]

end TypedId.Text
