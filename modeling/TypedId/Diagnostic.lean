import TypedId.Capability
import TypedId.Backing

/-!
# Diagnostics

A diagnostic reports a capability that was asked for and left out.
-/

namespace TypedId

/-- Why a capability was left out. -/
inductive DropReason where
  /-- The catalog has no fragment for it on this backing. -/
  | notApplicable (backing : Backing)
  /-- It needs another implementation that was not kept. -/
  | missingPrerequisite (needed : Implementation)
deriving DecidableEq, Repr

inductive Severity where
  /-- Generation went on without the capability. -/
  | warning
deriving DecidableEq, Repr

structure Diagnostic where
  typeName : Text
  capability : Capability
  reason : DropReason
deriving DecidableEq

namespace Diagnostic

/-- The identifier by which hosts filter diagnostics. -/
def id (d : Diagnostic) : String :=
  match d.reason with
  | .notApplicable _ => "SG0001"
  | .missingPrerequisite _ => "SG0002"

def severity (_ : Diagnostic) : Severity := .warning

def message (d : Diagnostic) : Text :=
  d.id.toList ++ ": ".toList ++ d.capability.describe ++
    match d.reason with
    | .notApplicable backing =>
      " is not available for ".toList ++ backing.name.toList ++ " backing on '".toList
        ++ d.typeName ++ "' and was omitted".toList
    | .missingPrerequisite needed =>
      " on '".toList ++ d.typeName ++ "' requires implementation '".toList ++ needed.name.toList
        ++ "' and was omitted".toList

end Diagnostic
end TypedId
