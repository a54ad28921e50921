import TypedId.Text.Search

/-!
# Identifiers

An identifier is a letter or underscore followed by letters, digits and underscores, all ASCII.
-/

namespace TypedId.Text

def isIdentifierStart (c : Char) : Bool := c.isAlpha || c = '_'

def isIdentifierPart (c : Char) : Bool := c.isAlphanum || c = '_'

def isIdentifier : Text → Bool
  | [] => false
  | c :: s => isIdentifierStart c && s.all isIdentifierPart

/-- Whether a text is one or more identifiers joined by dots. -/
def isDotted (s : Text) : Bool := (s.splitOn '.').all isIdentifier

end TypedId.Text
