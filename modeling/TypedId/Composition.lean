import TypedId.Interfaces
import TypedId.Selection
import TypedId.SourceUnit

/-!
# Composition

Puts the fragments of a selection together. Every section is rendered on its own, under the key it
came from, and has one place: attribute lines above the struct header, members inside the struct,
hooks inside the validation method, siblings after the struct. The base owns the header and both
slots.
-/

namespace TypedId

/-- A selected fragment under its key. -/
structure Part where
  key : Key
  fragment : Fragment
deriving DecidableEq

namespace Part

def isImplementation (p : Part) : Bool := p.key matches .implementation ..

def isConverter (p : Part) : Bool := p.key matches .converter ..

/-- The parts of the given keys. The first key without a fragment is reported. -/
def gather (typeName : Text) (c : Catalog) (keys : List Key) : Except Failure (List Part) :=
  keys.mapM fun key =>
    match c.lookup key with
    | some fragment => .ok ⟨key, fragment⟩
    | none => .error (.missingFragment typeName key)

/-- The first part, which must be the base of the spec's backing. -/
def leadingBase (s : Spec) (parts : List Part) : Except Failure Part :=
  match parts.head?.filter (·.key = .base s.backing) with
  | some base => .ok base
  | none => .error (.missingFragment s.name (.base s.backing))

/-- A base section that must be there and have a slot. -/
def slotted (typeName : Text) (key : Key) (slot : Text) (text : Option Text) :
    Except Failure Text :=
  match text.filter (Text.occursIn slot) with
  | some s => .ok s
  | none => .error (.unresolved typeName key slot)

/-- One section of each part that has it, rendered. -/
def renderAll (typeName : Text) (pick : Fragment → Option Text) (parts : List Part) :
    Except Failure (List Text) :=
  (parts.filterMap fun p => (pick p.fragment).map (p.key, ·)).mapM fun e =>
    Placeholder.render typeName e.1 e.2

end Part

/-- The text of the struct: attribute lines, header, and the member blocks between braces with an
empty line between blocks. -/
def structText (attributeLines : List Text) (header : Text) (members : List Text) : Text :=
  attributeLines.flatMap (· ++ ['\n']) ++ header ++ "\n\x7b\n".toList
    ++ ['\n'].intercalate members ++ "\x7d\n".toList

/-- The source unit of a selection. Members of implementations precede those of converters. -/
def Spec.compose (s : Spec) (sel : Selection) (c : Catalog) : Except Failure SourceUnit := do
  let parts ← Part.gather s.name c sel.keys
  let base ← Part.leadingBase s parts
  let headerText ← Part.slotted s.name base.key Placeholder.interfacesToken base.fragment.header
  let bodyText ← Part.slotted s.name base.key Placeholder.validateToken base.fragment.members
  let hooks ← Part.renderAll s.name (·.hook) parts
  let header ← Placeholder.render s.name base.key
    (Text.substitute Placeholder.interfacesToken (Interfaces.clause sel.implementations) headerText)
  let body ← Placeholder.render s.name base.key
    (Text.substitute Placeholder.validateToken hooks.flatten bodyText)
  let members ← Part.renderAll s.name (·.members)
    (parts.filter Part.isImplementation ++ parts.filter Part.isConverter)
  let attributeLines ← Part.renderAll s.name (·.attributeLine) parts.tail
  let siblings ← Part.renderAll s.name (·.sibling) parts.tail
  let declarations := ⟨.primary, s.name, structText attributeLines header (body :: members)⟩
    :: siblings.map (Declaration.ofSibling s.name)
  return {
    hintName := s.hintName
    typeName := s.name
    declarations := declarations
    diagnostics := sel.diagnostics
    source := SourceUnit.assemble s.scope declarations }

end TypedId
