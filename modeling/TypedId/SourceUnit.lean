import TypedId.Diagnostic
import TypedId.Spec
import TypedId.Text.Blank

/-!
# Source units

A source unit is one generated file: its content, the struct and the declarations beside it that
make up the content, and the diagnostics of the choice that was made.
-/

namespace TypedId

inductive Role where
  /-- The struct itself. -/
  | primary
  /-- An adapter after the struct. -/
  | sibling
deriving DecidableEq, Repr

structure Declaration where
  role : Role
  name : Text
  text : Text
deriving DecidableEq

namespace Declaration

/-- The words that open a type declaration. -/
def headWords : List Text :=
  ["class".toList, "struct".toList, "record".toList, "interface".toList]

/-- The identifier that stands after the first head word, as far as it goes. -/
def declaredName? (text : Text) : Option Text :=
  match (Text.words text).dropWhile (· ∉ headWords) with
  | _ :: word :: _ => some (word.takeWhile Text.isIdentifierPart) |>.filter (· ≠ [])
  | _ => none

/-- A declaration beside the struct; one that declares no name goes by the type's. -/
def ofSibling (typeName text : Text) : Declaration :=
  ⟨.sibling, (declaredName? text).getD typeName, text⟩

end Declaration

structure SourceUnit where
  /-- The name of the file. -/
  hintName : Text
  typeName : Text
  declarations : List Declaration
  diagnostics : List Diagnostic
  /-- The content of the file. -/
  source : Text
deriving DecidableEq

namespace SourceUnit

/-- The declaration of the struct. -/
def primary? (u : SourceUnit) : Option Declaration := u.declarations.find? (·.role = .primary)

def siblings (u : SourceUnit) : List Declaration := u.declarations.filter (·.role = .sibling)

/-- What every generated file opens with. -/
def preamble : Text := "// <auto-generated/>\n#nullable enable\n\n".toList

/-- The line that opens the namespace, and an empty one. -/
def scopeLine : Option Text → Text
  | some scope => "namespace ".toList ++ scope ++ ";\n\n".toList
  | none => []

@[simp] theorem scopeLine_none : scopeLine none = [] := rfl

theorem scopeLine_some (scope : Text) :
    scopeLine (some scope) = "namespace ".toList ++ scope ++ ";\n\n".toList := rfl

/-- The content of a file that holds these declarations, with a line end between them. -/
def assemble (scope : Option Text) (declarations : List Declaration) : Text :=
  preamble ++ scopeLine scope ++ ['\n'].intercalate (declarations.map (·.text))

end SourceUnit
end TypedId
