import TypedId.Settings.Document.Space

/-!
# Strings of documents

A string stands between double quotes, with escapes, or between single quotes, without; between
three of them it may run over several lines. Line ends inside are read as line feeds, and a line
feed directly after the opening quotes is left out.
-/

namespace TypedId.Settings.Document

/-- Drops a line end if one stands here. -/
def skipNewline (s : Text) : Text := (newline? s).getD s

/-- The rest after a backslash that hides its line end and all blanks and line ends after it. -/
def hiddenLineEnd? (s : Text) : Option Text :=
  (newline? (skipBlank s)).map fun rest =>
    let step (r : Text) : Text := skipNewline (skipBlank r)
    Nat.repeat step rest.length rest

/-- Reads at most `fuel` characters of a string over several lines. Of the quotes before its end up
to two belong to it. -/
def multilineFrom (quote : Char) : Nat → Text → Option (Text × Text)
  | 0, _ => none
  | _, [] => none
  | fuel + 1, c :: s =>
    if c = quote then
      let run := ((c :: s).takeWhile (· = quote)).length
      if 3 ≤ run then
        let kept := min (run - 3) 2
        some (List.replicate kept quote, (c :: s).drop (kept + 3))
      else consRead c (multilineFrom quote fuel s)
    else if c = '\\' && quote = '"' then
      match hiddenLineEnd? s with
      | some rest => multilineFrom quote fuel rest
      | none => (escape? s).bind fun e => consRead e.1 (multilineFrom quote fuel e.2)
    else if isPlain c then consRead c (multilineFrom quote fuel s)
    else (newline? (c :: s)).bind fun rest => consRead '\n' (multilineFrom quote fuel rest)

/-- A string over several lines, after its three opening quotes. -/
def multiline? (quote : Char) (s : Text) : Option (Text × Text) :=
  multilineFrom quote (s.length + 1) (skipNewline s)

/-- Any string. -/
def string? : Text → Option (Text × Text)
  | '"' :: '"' :: '"' :: s => multiline? '"' s
  | '"' :: s => quoted? s
  | '\'' :: '\'' :: '\'' :: s => multiline? '\'' s
  | '\'' :: s => verbatim? s
  | _ => none

end TypedId.Settings.Document
