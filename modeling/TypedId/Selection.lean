import TypedId.Catalog
import TypedId.Diagnostic
import TypedId.Spec

/-!
# Selection

Which fragments a spec uses. A capability that was asked for is chosen if the catalog has its
fragment and its prerequisite is chosen too; otherwise a diagnostic reports it. Prerequisites
precede their dependants in canonical order, so one pass decides.
-/

namespace TypedId

/-- The implementation that must be kept as well for the capability to compose. -/
def Capability.prerequisite : Capability → Option Implementation
  | converter _ => none
  | implementation k => k.prerequisite

/-- The capabilities that a spec asks for, in canonical order. -/
def Spec.requested (s : Spec) : List Capability :=
  s.converters.toList.map .converter ++ s.implementations.toList.map .implementation

/-- The chosen keys, and a diagnostic for every capability left out. -/
structure Selection where
  keys : List Key
  diagnostics : List Diagnostic := []
deriving DecidableEq

namespace Selection

def converters (sel : Selection) : List Converter :=
  sel.keys.filterMap fun
    | .converter _ k => some k
    | _ => none

def implementations (sel : Selection) : List Implementation :=
  sel.keys.filterMap fun
    | .implementation _ k => some k
    | _ => none

/-- Why a capability cannot join what is already selected. -/
def refusal? (c : Catalog) (s : Spec) (sel : Selection) (cap : Capability) : Option DropReason :=
  if (c.lookup (.ofCapability s.backing cap)).isNone then some (.notApplicable s.backing)
  else (cap.prerequisite.filter (· ∉ sel.implementations)).map .missingPrerequisite

/-- Adds a capability's key, or the diagnostic that says why not. -/
def consider (c : Catalog) (s : Spec) (sel : Selection) (cap : Capability) : Selection :=
  match refusal? c s sel cap with
  | some reason => { sel with diagnostics := sel.diagnostics ++ [⟨s.name, cap, reason⟩] }
  | none => { sel with keys := sel.keys ++ [.ofCapability s.backing cap] }

end Selection

/-- The selection of a spec: the base first, then what it asks for. Without a base there is none. -/
def Spec.select (s : Spec) (c : Catalog) : Except Failure Selection :=
  if (c.lookup (.base s.backing)).isNone then .error (.missingFragment s.name (.base s.backing))
  else .ok (s.requested.foldl (Selection.consider c s) { keys := [.base s.backing] })

end TypedId
