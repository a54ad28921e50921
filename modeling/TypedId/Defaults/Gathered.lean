import TypedId.Defaults
import TypedId.Settings.Layers

/-!
# Defaults from settings

Settings name the values of the fields. First every field must have the right shape; then every
name must be known and concrete. What settings leave out is as built in.
-/

namespace TypedId.Defaults

/-- The key of the backing in settings. -/
def backingField : String := "backing_type"

/-- The word that defers a field, in any case of letters. -/
def deferral : Text := "default".toList

/-- A text at a place of the settings. -/
def readText (place : List Text) : Value → Except Failure Text
  | .text s => .ok s
  | v => .error (.gathering 1 place (.mismatch v.describe "a string"))

/-- A list of texts at a place of the settings. -/
def readTexts (field : String) : Value → Except Failure (List Text)
  | .list items => items.zipIdx.mapM fun e => readText [field.toList, Decimal.ofNat e.2] e.1
  | v => .error (.gathering 1 [field.toList] (.mismatch v.describe "a sequence"))

/-- What a name stands for. White space around it does not count. -/
def readName {α : Type} (ofName? : Text → Option α) (field : String) (raw : Text) :
    Except Failure α :=
  let name := Text.trim raw
  if name.map Char.toLower = deferral then .error (.configuration [] (.deferred field))
  else
    match ofName? name with
    | some value => .ok value
    | none => .error (.configuration [] (.unknownName field name))

/-- The set of the named kinds. -/
def readNames (K : Type) [Family K] (raw : List Text) : Except Failure (KindSet K) :=
  (raw.mapM (readName Family.ofName? (Family.field K))).map KindSet.ofList

/-- The defaults that settings state, over the built-in ones. -/
def ofSettings (settings : Value) : Except Failure Defaults := do
  let convertersField := Family.field Converter
  let implementationsField := Family.field Implementation
  let backing ← (Settings.find? settings backingField).mapM (readText [backingField.toList])
  let converters ← (Settings.find? settings convertersField).mapM (readTexts convertersField)
  let implementations ←
    (Settings.find? settings implementationsField).mapM (readTexts implementationsField)
  let backing ← backing.mapM (readName Backing.ofName? backingField)
  let converters ← converters.mapM (readNames Converter)
  let implementations ← implementations.mapM (readNames Implementation)
  return {
    backing := backing.getD builtIn.backing
    converters := converters.getD builtIn.converters
    implementations := implementations.getD builtIn.implementations }

/-- The defaults of some layers. -/
def gathered (layers : List Settings.Layer) : Except Failure Defaults := do
  ofSettings (← Settings.gather layers)

end TypedId.Defaults
