import TypedId.Key
import TypedId.FileTree.Fault
import TypedId.Decimal.Numeral

/-!
# Failures

Everything that can stop a generation or the loading of defaults, as causes; the wording is in
`Failure.message` and the functions it calls.
-/

namespace TypedId

/-- Why a configuration was refused. -/
inductive Rejection where
  | unknownBacking (raw : Int)
  /-- The type's name is no identifier. -/
  | badName
  /-- The namespace is not made of identifiers joined by dots. -/
  | badScope (scope : Text)
  /-- A settings file that was asked for by path is not there. -/
  | noFile (path : Text)
  /-- A default defers to the defaults. -/
  | deferred (field : String)
  | unknownName (field : String) (name : Text)
  /-- A reason in the caller's words. -/
  | stated (message : Text)
deriving DecidableEq

namespace Rejection

def message : Rejection → Text
  | unknownBacking raw => "unknown backing type value ".toList ++ Decimal.ofInt raw
  | badName => "type name must be a C# identifier".toList
  | badScope scope =>
    "namespace '".toList ++ scope ++ "' must be dotted C# identifiers".toList
  | noFile path => "defaults file '".toList ++ path ++ "' does not exist".toList
  | deferred field =>
    "defaults must be concrete; '".toList ++ field.toList ++ "' is set to 'default'".toList
  | unknownName field name =>
    "unknown ".toList ++ field.toList ++ " value '".toList ++ name ++ ['\'']
  | stated message => message

end Rejection

/-- What went wrong while settings were gathered. -/
inductive GatherCause where
  /-- A settings document is not well formed. -/
  | unreadable
  /-- A value has the wrong shape. -/
  | mismatch (found : Text) (expected : String)
  /-- A reason in the caller's words. -/
  | stated (message : Text)
deriving DecidableEq

namespace GatherCause

def message : GatherCause → Text
  | unreadable => "settings document is not well formed".toList
  | mismatch found expected =>
    "invalid type: found ".toList ++ found ++ ", expected ".toList ++ expected.toList
  | stated message => message

end GatherCause

inductive Failure where
  /-- A configuration cannot be made concrete. Process-wide defaults belong to the empty name. -/
  | configuration (typeName : Text) (cause : Rejection)
  /-- A raw field has bits that it may not have. -/
  | unknownBits (typeName : Text) (field : String) (bits : Word)
  /-- The catalog lacks a fragment that the type needs. -/
  | missingFragment (typeName : Text) (key : Key)
  /-- A fragment left a placeholder behind, or lacks one that it must have. -/
  | unresolved (typeName : Text) (key : Key) (token : Text)
  /-- Settings could not be gathered: how many layers failed, and where the value stands. -/
  | gathering (count : Nat) (path : List Text) (cause : GatherCause)
  /-- A file could not be read or written. -/
  | storage (path : Text) (fault : FileFault)
deriving DecidableEq

namespace Failure

def message : Failure → Text
  | configuration typeName cause =>
    "invalid configuration for '".toList ++ typeName ++ "': ".toList ++ cause.message
  | unknownBits typeName field bits =>
    "invalid ".toList ++ field.toList ++ " bits 0x".toList ++ Nat.toDigits 16 bits.toNat
      ++ " on '".toList ++ typeName ++ ['\'']
  | missingFragment typeName key =>
    "catalog has no fragment ".toList ++ key.path ++ " needed to compose '".toList ++ typeName
      ++ ['\'']
  | unresolved typeName key token =>
    "fragment ".toList ++ key.path ++ " left placeholder '".toList ++ token
      ++ "' unresolved while composing '".toList ++ typeName ++ ['\'']
  | gathering _ _ cause => "failed to gather generator defaults: ".toList ++ cause.message
  | storage path fault =>
    "I/O error at ".toList ++ path ++ ": ".toList ++ fault.describe.toList

/-- The message as a settings source reports it: a gathering failure is its cause alone. -/
def gatherMessage : Failure → Text
  | gathering _ _ cause => cause.message
  | f => f.message

/-- Whether the fault lies with the catalog. -/
def isDefect : Failure → Bool
  | missingFragment .. | unresolved .. => true
  | _ => false

/-- Whether the failure stops one type only. -/
def isScoped : Failure → Bool
  | gathering .. | storage .. => false
  | _ => true

/-- The type that the failure belongs to. -/
def typeName? : Failure → Option Text
  | configuration name _ | unknownBits name .. | missingFragment name _ | unresolved name .. =>
    some name
  | gathering .. | storage .. => none

end Failure
end TypedId
