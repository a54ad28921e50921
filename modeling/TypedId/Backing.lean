import TypedId.Setting
import TypedId.Text.Search

/-!
# Backings

The primitive that stores an identifier's value.
-/

namespace TypedId

inductive Backing where
  | guid
  | int
  | long
  | decimal
  | string
  /-- A string that may be absent. -/
  | nullableString
  /-- A GUID of which only the last four digits are shown. -/
  | maskedGuid
deriving DecidableEq, Repr

namespace Backing

/-- Every backing once, in canonical order. -/
def all : List Backing := [guid, int, long, decimal, string, nullableString, maskedGuid]

theorem mem_all (b : Backing) : b ∈ all := by cases b <;> decide

/-- The name in requests, settings and reports. -/
def name : Backing → String
  | guid => "guid"
  | int => "int"
  | long => "long"
  | decimal => "decimal"
  | string => "string"
  | nullableString => "nullable_string"
  | maskedGuid => "masked_guid"

/-- The name as one capitalised word. -/
def label : Backing → String
  | guid => "Guid"
  | int => "Int"
  | long => "Long"
  | decimal => "Decimal"
  | string => "String"
  | nullableString => "NullableString"
  | maskedGuid => "MaskedGuid"

/-- The C# type of the stored value. -/
def primitive : Backing → String
  | guid | maskedGuid => "System.Guid"
  | int => "int"
  | long => "long"
  | decimal => "decimal"
  | string => "string"
  | nullableString => "string?"

/-- The backing of a given name. -/
def ofName? (s : Text) : Option Backing := all.find? (·.name.toList = s)

/-- The raw attribute value of a backing; zero stands for a deferred field. The values follow the
canonical order. -/
def code : Backing → Nat
  | guid => 1
  | int => 2
  | long => 3
  | decimal => 4
  | string => 5
  | nullableString => 6
  | maskedGuid => 7

/-- Reads a raw attribute value; one that stands for no backing is handed back. -/
def decode (raw : Int) : Except Int (Setting Backing) :=
  if raw = 0 then .ok .deferred
  else match all.find? fun b => (b.code : Int) = raw with
    | some b => .ok (.explicit b)
    | none => .error raw

theorem code_injective {a b : Backing} (h : a.code = b.code) : a = b := by
  cases a <;> cases b <;> simp [code] at h ⊢

theorem code_lt (b : Backing) : b.code < 8 := by cases b <;> decide

theorem ofName?_eq_some {s : Text} {b : Backing} : ofName? s = some b ↔ b.name.toList = s := by
  constructor
  · intro h
    simpa using List.find?_some h
  · rintro rfl
    cases b <;> simp [ofName?, all, List.find?, name]

end Backing
end TypedId
