import TypedId.Defaults
import TypedId.Identifier

/-!
# Specs

A spec is a request of which every field is concrete. Resolving a request checks its names and
fills the fields that defer.
-/

namespace TypedId

@[ext] structure Spec where
  name : Text
  scope : Option Text
  backing : Backing
  converters : ConverterSet
  implementations : ImplementationSet
deriving DecidableEq

namespace Spec

/-- The name of the file that the type's source goes to. -/
def hintName (s : Spec) : Text :=
  match s.scope with
  | some scope => scope ++ ['.'] ++ s.name ++ ".g.cs".toList
  | none => s.name ++ ".g.cs".toList

/-- The request that names every field. -/
def toRequest (s : Spec) : Request where
  name := s.name
  scope := s.scope
  backing := .explicit s.backing
  converters := .explicit s.converters
  implementations := .explicit s.implementations

end Spec

namespace Request

/-- The spec of a request under given defaults. The type's name is judged before its namespace. -/
def resolve (r : Request) (d : Defaults) : Except Failure Spec :=
  if !Text.isIdentifier r.name then .error (.configuration r.name .badName)
  else
    match r.scope.filter (!Text.isDotted ·) with
    | some scope => .error (.configuration r.name (.badScope scope))
    | none => .ok {
        name := r.name
        scope := r.scope
        backing := r.backing.getD d.backing
        converters := r.converters.getD d.converters
        implementations := r.implementations.getD d.implementations }

end Request
end TypedId
