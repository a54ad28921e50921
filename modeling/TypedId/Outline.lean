import TypedId.Text.Line

/-!
# The outline of a generated file

Reads the parts of a generated file back from its text, by lines and braces. The struct header is
known by the words it opens with; text that does not look like a generated file has no parts.
-/

namespace TypedId.Outline

/-- What every struct header opens with. -/
def headerOpening : Text := "readonly partial struct ".toList

/-- The header line of the struct, without white space around it. -/
def structHeader? (source : Text) : Option Text :=
  ((Text.lines source).map Text.trim).find? headerOpening.isPrefixOf

/-- The depth of angle brackets after a character. -/
def angleDepth (depth : Nat) : Char → Nat
  | '<' => depth + 1
  | '>' => depth - 1
  | _ => depth

/-- The parts between the commas that stand outside of angle brackets. -/
def entries (depth : Nat) : Text → List Text
  | [] => [[]]
  | c :: s =>
    if c = ',' && depth = 0 then [] :: entries 0 s
    else Text.consFirst c (entries (angleDepth depth c) s)

/-- The interfaces that the struct header lists. -/
def interfaces (source : Text) : List Text :=
  match (structHeader? source).bind (Text.splitFirst? " : ".toList) with
  | some (_, list) => (entries 0 list).map Text.trim
  | none => []

/-- The text before the brace that closes the innermost of `depth` open ones and all around it. -/
def upToClose (depth : Nat) : Text → Option Text
  | [] => none
  | c :: s =>
    if c = '\x7d' then
      if depth ≤ 1 then some [] else (upToClose (depth - 1) s).map (c :: ·)
    else (upToClose (if c = '\x7b' then depth + 1 else depth) s).map (c :: ·)

/-- The text between the braces of the struct. -/
def structBody? (source : Text) : Option Text :=
  (Text.splitFirst? headerOpening source).bind fun cut =>
    upToClose 1 ((cut.2.dropWhile (· ≠ '\x7b')).drop 1)

/-- The names of the classes that open at the start of a line. -/
def topLevelClasses (source : Text) : List Text :=
  (Text.lines source).filterMap fun line =>
    ("class ".toList.isPrefixOf? line).bind fun rest => (Text.words rest).head?

/-- The attribute lines directly above the struct header. -/
def structAttributes (source : Text) : List Text :=
  let lines := Text.lines source
  let above := lines.takeWhile (!headerOpening.isPrefixOf ·)
  if above.length = lines.length then []
  else (above.reverse.takeWhile fun line => line.head? = some '[').reverse

end TypedId.Outline
