import TypedId.Failure

/-!
# Placeholders

Fragment texts hold placeholders: a capitalised name between double braces. Rendering fills in the
type's name and refuses a text that still holds a placeholder. A double brace around anything else
is plain text.
-/

namespace TypedId.Placeholder

/-- Stands for the name of the type. -/
def typeToken : Text := "\x7b\x7bTYPE\x7d\x7d".toList

/-- Stands in a base header for the interface clause. -/
def interfacesToken : Text := "\x7b\x7bINTERFACES\x7d\x7d".toList

/-- Stands in base members for the statements of the validation hook. -/
def validateToken : Text := "\x7b\x7bVALIDATE\x7d\x7d".toList

/-- A character that a placeholder's name may hold. -/
def isNamePart (c : Char) : Bool := c.isUpper || c.isDigit || c = '_'

/-- Whether a text is the name of a placeholder. -/
def isName : Text → Bool
  | [] => false
  | c :: s => c.isUpper && s.all isNamePart

/-- Whether a text is a placeholder, braces included. -/
def IsPlaceholder (s : Text) : Prop :=
  ∃ name, isName name = true ∧ s = ['\x7b', '\x7b'] ++ name ++ ['\x7d', '\x7d']

/-- The placeholder at the very start of a text. -/
def leading? : Text → Option Text
  | '\x7b' :: '\x7b' :: s =>
    let name := s.takeWhile isNamePart
    if isName name && ['\x7d', '\x7d'].isPrefixOf (s.dropWhile isNamePart) then
      some (['\x7b', '\x7b'] ++ name ++ ['\x7d', '\x7d'])
    else none
  | _ => none

/-- The placeholder that starts leftmost. -/
def first? : Text → Option Text
  | [] => none
  | c :: s => (leading? (c :: s)).or (first? s)

/-- Fills in the type's name; what is left must hold no placeholder. -/
def render (typeName : Text) (key : Key) (s : Text) : Except Failure Text :=
  let filled := Text.substitute typeToken typeName s
  match first? filled with
  | some token => .error (.unresolved typeName key token)
  | none => .ok filled

end TypedId.Placeholder
