import TypedId.Builtin.Layout
import TypedId.Capability
import TypedId.Fragment

/-!
# Built-in converters

Adapters to serialisers, for every backing. All but one are classes of their own; three of them
are announced by an attribute line above the struct.
-/

namespace TypedId.Builtin

/-! ### Newtonsoft.Json -/

def newtonsoftRead : Storage → Lines
  | .value =>
    ["var result = serializer.Deserialize<¤?>(reader);",
     "return result.HasValue ? new §(result.Value) : null;"]
  | .text =>
    ["var result = serializer.Deserialize<string>(reader);",
     "return result is null ? null : new §(result);"]
  | .optionalText => ["return new §(serializer.Deserialize<string?>(reader));"]

def newtonsoft (s : Storage) : Lines :=
  block "class §NewtonsoftJsonConverter : Newtonsoft.Json.JsonConverter" <| paragraphs
    [["public override bool CanConvert(System.Type objectType) => objectType == typeof(§);"],
     block "public override void WriteJson(Newtonsoft.Json.JsonWriter writer, object? value, Newtonsoft.Json.JsonSerializer serializer)"
       ["var id = (§)value!;", "serializer.Serialize(writer, id.Value);"],
     block "public override object? ReadJson(Newtonsoft.Json.JsonReader reader, System.Type objectType, object? existingValue, Newtonsoft.Json.JsonSerializer serializer)"
       (newtonsoftRead s)]

/-! ### System.Text.Json -/

/-- Reads the stored value from a JSON reader. -/
def jsonRead : Backing → String
  | .int => "return new §(reader.GetInt32());"
  | .long => "return new §(reader.GetInt64());"
  | .decimal => "return new §(reader.GetDecimal());"
  | .guid | .maskedGuid => "return new §(reader.GetGuid());"
  | .string => "return new §(reader.GetString()!);"
  | .nullableString =>
    "return new §(reader.TokenType == System.Text.Json.JsonTokenType.Null ? null : reader.GetString());"

/-- Writes the stored value to a JSON writer. -/
def jsonWrite : Backing → Lines
  | .int | .long | .decimal => ["writer.WriteNumberValue(value.Value);"]
  | .guid | .maskedGuid | .string => ["writer.WriteStringValue(value.Value);"]
  | .nullableString =>
    block "if (value.Value is null)" ["writer.WriteNullValue();"]
      ++ block "else" ["writer.WriteStringValue(value.Value);"]

/-- An absent string is the adapter's own business. -/
def nullHandling : Storage → List Lines
  | .optionalText => [["public override bool HandleNull => true;"]]
  | _ => []

def systemText (b : Backing) : Lines :=
  block "class §SystemTextJsonConverter : System.Text.Json.Serialization.JsonConverter<§>" <|
    paragraphs <|
      nullHandling b.storage ++
      [block "public override § Read(ref System.Text.Json.Utf8JsonReader reader, System.Type typeToConvert, System.Text.Json.JsonSerializerOptions options)"
         [(jsonRead b : Text)],
       block "public override void Write(System.Text.Json.Utf8JsonWriter writer, § value, System.Text.Json.JsonSerializerOptions options)"
         (jsonWrite b)]

/-! ### System.ComponentModel -/

def canConvertFrom : Storage → String
  | .value =>
    "return sourceType == typeof(¤) || sourceType == typeof(string) || base.CanConvertFrom(context, sourceType);"
  | _ => "return sourceType == typeof(string) || base.CanConvertFrom(context, sourceType);"

def convertFromArms : Storage → Lines
  | .value =>
    ["¤ primitive => new §(primitive),",
     "string text when !string.IsNullOrEmpty(text) && ¤.TryParse(text, culture, out ¤ parsed) => new §(parsed),"]
  | _ => ["string text => new §(text),"]

def canConvertTo : Storage → String
  | .value =>
    "return destinationType == typeof(¤) || destinationType == typeof(string) || base.CanConvertTo(context, destinationType);"
  | _ =>
    "return destinationType == typeof(string) || base.CanConvertTo(context, destinationType);"

def convertToCases : Storage → Lines
  | .value =>
    block "if (value is § id)" <| paragraphs
      [block "if (destinationType == typeof(¤))" ["return id.Value;"],
       block "if (destinationType == typeof(string))" ["return id.Value.ToString();"]]
  | _ => block "if (value is § id && destinationType == typeof(string))" ["return id.Value;"]

def componentModel (s : Storage) : Lines :=
  block "class §TypeConverter : System.ComponentModel.TypeConverter" <| paragraphs
    [block "public override bool CanConvertFrom(System.ComponentModel.ITypeDescriptorContext? context, System.Type sourceType)"
       [(canConvertFrom s : Text)],
     block "public override object? ConvertFrom(System.ComponentModel.ITypeDescriptorContext? context, System.Globalization.CultureInfo? culture, object value)"
       (choice "return value switch"
         (convertFromArms s ++ [("_ => base.ConvertFrom(context, culture, value)," : Text)])),
     block "public override bool CanConvertTo(System.ComponentModel.ITypeDescriptorContext? context, System.Type? destinationType)"
       [(canConvertTo s : Text)],
     block "public override object? ConvertTo(System.ComponentModel.ITypeDescriptorContext? context, System.Globalization.CultureInfo? culture, object? value, System.Type destinationType)"
       (paragraphs
         [convertToCases s,
          ["return base.ConvertTo(context, culture, value, destinationType);"]])]

/-! ### Entity Framework Core -/

def entityFramework : Lines :=
  block "public class EfCoreValueConverter : Microsoft.EntityFrameworkCore.Storage.ValueConversion.ValueConverter<§, ¤>" <|
    paragraphs
      [["public EfCoreValueConverter()", "    : this(null)", ['\x7b'], ['\x7d']],
       ["public EfCoreValueConverter(Microsoft.EntityFrameworkCore.Storage.ValueConversion.ConverterMappingHints? mappingHints)",
        "    : base(id => id.Value, value => new §(value), mappingHints)", ['\x7b'], ['\x7d']]]

/-! ### Dapper -/

def dapperSet : Storage → String
  | .optionalText => "parameter.Value = (object?)value.Value ?? System.DBNull.Value;"
  | _ => "parameter.Value = value.Value;"

def dapperArms : Storage → Lines
  | .value =>
    ["¤ primitive => new §(primitive),",
     "string text when ¤.TryParse(text, System.Globalization.CultureInfo.InvariantCulture, out ¤ parsed) => new §(parsed),"]
  | .text => ["string text => new §(text),"]
  | .optionalText => ["System.DBNull => new §(null),", "string text => new §(text),"]

def dapper (s : Storage) : Lines :=
  block "class §DapperTypeHandler : Dapper.SqlMapper.TypeHandler<§>" <| paragraphs
    [block "public override void SetValue(System.Data.IDbDataParameter parameter, § value)"
       [(dapperSet s : Text)],
     block "public override § Parse(object value)"
       (choice "return value switch"
         (dapperArms s ++
           [("_ => throw new System.InvalidCastException($\"Unable to cast object of type \x7bvalue.GetType()\x7d to §\")," : Text)]))]

/-! ### Fragments -/

/-- The fragment of a converter on a backing. -/
def converter (b : Backing) : Converter → Fragment
  | .newtonsoftJson => {
      attributeLine := line b "[Newtonsoft.Json.JsonConverter(typeof(§NewtonsoftJsonConverter))]"
      sibling := written b (newtonsoft b.storage) }
  | .systemTextJson => {
      attributeLine :=
        line b "[System.Text.Json.Serialization.JsonConverter(typeof(§SystemTextJsonConverter))]"
      sibling := written b (systemText b) }
  | .typeConverter => {
      attributeLine := line b "[System.ComponentModel.TypeConverter(typeof(§TypeConverter))]"
      sibling := written b (componentModel b.storage) }
  | .efCoreValueConverter => { members := written b (indent entityFramework) }
  | .dapperTypeHandler => { sibling := written b (dapper b.storage) }

end TypedId.Builtin
