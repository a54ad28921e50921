import TypedId.Failure
import TypedId.KindSet

/-!
# Requests

What a host asks for one type. Any field may defer to the process-wide defaults.
-/

namespace TypedId

abbrev ConverterSet := KindSet Converter

abbrev ImplementationSet := KindSet Implementation

@[ext] structure Request where
  name : Text
  /-- The dotted namespace of the declaration, if any. -/
  scope : Option Text := none
  backing : Setting Backing := .deferred
  converters : Setting ConverterSet := .deferred
  implementations : Setting ImplementationSet := .deferred
deriving DecidableEq

namespace Request

/-- Whether no field defers. -/
def isConcrete (r : Request) : Bool :=
  !r.backing.isDeferred && !r.converters.isDeferred && !r.implementations.isDeferred

/-- Reads a raw set field of the type `name`. -/
def decodeSet (K : Type) [Family K] (name : Text) (raw : Word) :
    Except Failure (Setting (KindSet K)) :=
  (KindSet.decode raw).mapError fun bits => .unknownBits name (Family.field K) bits

/-- Reads a request from raw attribute values. The first bad field in the order of the arguments is
reported. -/
def ofRaw (name : Text) (backing : Int) (converters implementations : Word) :
    Except Failure Request := do
  let backing ← (Backing.decode backing).mapError fun raw =>
    .configuration name (.unknownBacking raw)
  let converters ← decodeSet Converter name converters
  let implementations ← decodeSet Implementation name implementations
  return { name, backing, converters, implementations }

end Request
end TypedId
