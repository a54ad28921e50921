import TypedId.Text.Formless

/-!
# Quoted text

A quoted text stands between quotes. A quote, a backslash and the usual controls are written with
a backslash, and a character without a form of its own by its number.
-/

namespace TypedId.Text

/-- The number of a character in braces, in lower-case hexadecimal digits. -/
def codeEscape (c : Char) : Text :=
  ['\\', 'u', '\x7b'] ++ Nat.toDigits 16 c.toNat ++ ['\x7d']

/-- A character inside a quoted text. -/
def escapeChar (c : Char) : Text :=
  if c = '"' || c = '\\' then ['\\', c]
  else if c.toNat = 0 then ['\\', '0']
  else if c = '\t' then ['\\', 't']
  else if c = '\r' then ['\\', 'r']
  else if c = '\n' then ['\\', 'n']
  else if isFormless c then codeEscape c
  else [c]

/-- A text between double quotes. -/
def quoted (s : Text) : Text := '"' :: s.flatMap escapeChar ++ ['"']

end TypedId.Text
