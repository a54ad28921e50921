import TypedId.Family

/-!
# Capabilities

What a request may ask for besides the stored value: converters, which adapt the identifier to a
serialiser, and implementations, which give it behaviour.
-/

namespace TypedId

/-- An adapter emitted with the identifier. -/
inductive Converter where
  | newtonsoftJson
  | systemTextJson
  | typeConverter
  | efCoreValueConverter
  | dapperTypeHandler
deriving DecidableEq, Repr

namespace Converter

def name : Converter → String
  | newtonsoftJson => "newtonsoft_json"
  | systemTextJson => "system_text_json"
  | typeConverter => "type_converter"
  | efCoreValueConverter => "ef_core_value_converter"
  | dapperTypeHandler => "dapper_type_handler"

def label : Converter → String
  | newtonsoftJson => "NewtonsoftJson"
  | systemTextJson => "SystemTextJson"
  | typeConverter => "TypeConverter"
  | efCoreValueConverter => "EfCoreValueConverter"
  | dapperTypeHandler => "DapperTypeHandler"

/-- What follows the type's name in the name of the adapter class. -/
def classSuffix : Converter → String
  | newtonsoftJson => "NewtonsoftJsonConverter"
  | systemTextJson => "SystemTextJsonConverter"
  | typeConverter => "TypeConverter"
  | efCoreValueConverter => "EfCoreValueConverter"
  | dapperTypeHandler => "DapperTypeHandler"

def position : Converter → Nat
  | newtonsoftJson => 1
  | systemTextJson => 2
  | typeConverter => 3
  | efCoreValueConverter => 4
  | dapperTypeHandler => 5

instance : Family Converter where
  all := [newtonsoftJson, systemTextJson, typeConverter, efCoreValueConverter, dapperTypeHandler]
  position := position
  name := name
  label := label
  field := "converters"
  mem_all k := by cases k <;> decide
  ascending := by decide
  position_pos k := by cases k <;> decide
  position_lt k := by cases k <;> decide
  name_injective a b h := by
    cases a <;> cases b <;> simp [name] at h ⊢

end Converter

/-- A behaviour of the identifier. -/
inductive Implementation where
  | equatable
  | comparable
  | parsable
  | formattable
  | comparisonOperators
  /-- A body for the validation hook. -/
  | validation
deriving DecidableEq, Repr

namespace Implementation

def name : Implementation → String
  | equatable => "equatable"
  | comparable => "comparable"
  | parsable => "parsable"
  | formattable => "formattable"
  | comparisonOperators => "comparison_operators"
  | validation => "validation"

def label : Implementation → String
  | equatable => "Equatable"
  | comparable => "Comparable"
  | parsable => "Parsable"
  | formattable => "Formattable"
  | comparisonOperators => "ComparisonOperators"
  | validation => "Validation"

def position : Implementation → Nat
  | equatable => 1
  | comparable => 2
  | parsable => 3
  | formattable => 4
  | comparisonOperators => 5
  | validation => 6

instance : Family Implementation where
  all := [equatable, comparable, parsable, formattable, comparisonOperators, validation]
  position := position
  name := name
  label := label
  field := "implementations"
  mem_all k := by cases k <;> decide
  ascending := by decide
  position_pos k := by cases k <;> decide
  position_lt k := by cases k <;> decide
  name_injective a b h := by
    cases a <;> cases b <;> simp [name] at h ⊢

/-- The implementation that must be kept as well for this one to compose. -/
def prerequisite : Implementation → Option Implementation
  | comparisonOperators => some equatable
  | _ => none

end Implementation

/-- A converter or an implementation. -/
inductive Capability where
  | converter (kind : Converter)
  | implementation (kind : Implementation)
deriving DecidableEq, Repr

namespace Capability

/-- What sort of capability it is. -/
def sort : Capability → String
  | converter _ => "converter"
  | implementation _ => "implementation"

def name : Capability → String
  | converter k => k.name
  | implementation k => k.name

/-- The capability in a report. -/
def describe (c : Capability) : Text :=
  c.sort.toList ++ [' ', '\''] ++ c.name.toList ++ ['\'']

/-- The place in canonical order: converters before implementations. -/
def rank : Capability → Nat
  | converter k => k.position
  | implementation k => 32 + k.position

/-- Capabilities in canonical order, each once. -/
def arrange (items : List Capability) : List Capability :=
  (items.mergeSort fun a b => a.rank ≤ b.rank).eraseDups

end Capability
end TypedId
