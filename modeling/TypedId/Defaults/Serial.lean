import TypedId.Defaults
import TypedId.Settings.Value

/-!
# Serialised defaults

Kinds, sets of kinds and defaults as values, and back. Written values are canonical: a kind is its
name and a set lists its kinds in order. Reading also takes a kind as a table of one entry, a set in
any order with repetitions, and defaults as a list of the three fields.
-/

namespace TypedId.Serial

inductive Problem where
  /-- A value of another shape stands where `expected` should. -/
  | mismatch (found expected : Text)
  /-- A name is none of the known ones. -/
  | unknownVariant (name : Text) (known : List String)
  /-- A table for a kind has no entry or several. -/
  | notSingle
  | missingField (field : String)
  /-- A list of defaults ends early. -/
  | tooShort (length : Nat)
  /-- A list of defaults goes on. -/
  | tooLong (length : Nat)
deriving DecidableEq

/-- A text between backticks. -/
def ticked (s : Text) : Text := '\x60' :: s ++ ['\x60']

namespace Problem

def message : Problem → Text
  | mismatch found expected =>
    "invalid type: ".toList ++ found ++ ", expected ".toList ++ expected
  | unknownVariant name known =>
    "unknown variant ".toList ++ ticked name ++ ", expected one of ".toList
      ++ ", ".toList.intercalate (known.map fun k => ticked k.toList)
  | notSingle => "invalid value: map, expected map with a single key".toList
  | missingField field => "missing field ".toList ++ ticked field.toList
  | tooShort length =>
    "invalid length ".toList ++ Decimal.ofNat length
      ++ ", expected struct GeneratorDefaults with 3 elements".toList
  | tooLong length =>
    "invalid length ".toList ++ Decimal.ofNat length
      ++ ", expected fewer elements in array".toList

end Problem

/-- What a value is found to be. -/
def describe : Value → Text
  | .null => "null".toList
  | .bool b => Value.shown "boolean" (Value.boolText b)
  | .natural n => Value.shown "integer" (Decimal.ofNat n)
  | .integer z => Value.shown "integer" (Decimal.ofInt z)
  | .real x => Value.shown "floating point" (Decimal.ofFloat .pointed16 x)
  | .text s => "string ".toList ++ Text.quoted s
  | .list _ => "sequence".toList
  | .table _ => "map".toList

/-- Refuses a value where something else was expected. -/
def mismatch {α : Type} (v : Value) (expected : Text) : Except Problem α :=
  .error (.mismatch (describe v) expected)

/-! ### Reading -/

/-- Reads a kind of which `known` are the names. -/
def readVariant {α : Type} (ofName? : Text → Option α) (known : List String) :
    Value → Except Problem α
  | .text s =>
    match ofName? s with
    | some k => .ok k
    | none => .error (.unknownVariant s known)
  | .table [(s, content)] =>
    match ofName? s, content with
    | none, _ => .error (.unknownVariant s known)
    | some k, .null => .ok k
    | some _, v => mismatch v "unit".toList
  | .table _ => .error .notSingle
  | v => mismatch v "string or map".toList

def readBacking : Value → Except Problem Backing :=
  readVariant Backing.ofName? (Backing.all.map Backing.name)

def readKind (K : Type) [Family K] : Value → Except Problem K :=
  readVariant Family.ofName? ((Family.all : List K).map Family.name)

/-- Reads a set of kinds. The first kind that cannot be read is reported. -/
def readSet (K : Type) [Family K] : Value → Except Problem (KindSet K)
  | .list items => (items.mapM (readKind K)).map KindSet.ofList
  | v => mismatch v ("a list of ".toList ++ (Family.field K).toList ++ " names".toList)

/-- A field that must be there. -/
def required {α : Type} (field : String) : Option α → Except Problem α
  | some x => .ok x
  | none => .error (.missingField field)

/-- Reads defaults. What is there is read before anything is missed. -/
def readDefaults : Value → Except Problem Defaults
  | .table entries => do
    let backing ← (entries.lookup "backing_type".toList).mapM readBacking
    let converters ← (entries.lookup "converters".toList).mapM (readSet Converter)
    let implementations ← (entries.lookup "implementations".toList).mapM (readSet Implementation)
    let backing ← required "backing_type" backing
    let converters ← required "converters" converters
    let implementations ← required "implementations" implementations
    return { backing, converters, implementations }
  | .list items => do
    let backing ← (items[0]?).mapM readBacking
    let converters ← (items[1]?).mapM (readSet Converter)
    let implementations ← (items[2]?).mapM (readSet Implementation)
    if 3 < items.length then throw (.tooLong items.length)
    match backing, converters, implementations with
    | some backing, some converters, some implementations =>
      return { backing, converters, implementations }
    | _, _, _ => throw (.tooShort items.length)
  | v => mismatch v "struct GeneratorDefaults".toList

/-! ### Writing -/

def writeName (name : String) : Value := .text name.toList

/-- The list of a set's kinds in order. -/
def writeSet {K : Type} [Family K] (s : KindSet K) : Value :=
  .list (s.toList.map fun k => writeName (Family.name k))

def writeDefaults (d : Defaults) : Value :=
  .table
    [("backing_type".toList, writeName d.backing.name),
     ("converters".toList, writeSet d.converters),
     ("implementations".toList, writeSet d.implementations)]

end TypedId.Serial
