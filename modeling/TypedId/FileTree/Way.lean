import TypedId.FileTree.Fault
import TypedId.Text.Search

/-!
# Ways

A way leads from a directory to a file or directory, step by step. Steps are written with slashes
between them; a slash at the end asks for a directory. A text that is empty, too long, or has the
character that ends texts in memory, writes down no way.
-/

namespace TypedId

/-- The place of a file or directory: the names on the way from the top. -/
abbrev Path := List Text

inductive Step where
  /-- Stay, which only a directory allows. -/
  | stay
  /-- Go to the directory around. -/
  | up
  /-- Go to what has this name. -/
  | name (name : Text)
deriving DecidableEq

structure Way where
  /-- The way starts at the top of the whole system. -/
  absolute : Bool
  steps : List Step
  /-- The last step must lead to a directory. -/
  closed : Bool
deriving DecidableEq

namespace Way

/-- The step that a part between slashes stands for. -/
def step? (part : Text) : Option Step :=
  if part = [] then none
  else if part = ['.'] then some .stay
  else if part = ['.', '.'] then some .up
  else some (.name part)

def ofText (s : Text) : Way where
  absolute := s.head? = some '/'
  steps := (s.splitOn '/').filterMap step?
  closed := s.getLast? = some '/'

/-- The length in bytes that a written way may have. -/
def longest : Nat := 4095

/-- The way that a text writes down, if it can be followed at all. -/
def parse (s : Text) : Except FileFault Way :=
  if Char.ofNat 0 ∈ s then .error .invalid
  else if longest < Text.byteLength s then .error .nameTooLong
  else if s = [] then .error .missing
  else .ok (ofText s)

/-- The place that the steps lead to when nothing is looked up. -/
def plainPath (w : Way) : Path :=
  w.steps.foldl (fun path step =>
    match step with
    | .stay => path
    | .up => path.dropLast
    | .name name => path ++ [name]) []

end Way

/-- The length in bytes that a name may have. -/
def Path.longestName : Nat := 255

end TypedId
