import TypedId.Builtin.Layout
import TypedId.Fragment

/-!
# Built-in bases

The struct of every backing: the value, two constructors that validate it, the empty identifier,
text conversions both ways, and the validation hook.
-/

namespace TypedId.Builtin

/-- The header of every struct. -/
def header : Text :=
  "readonly partial struct ".toList ++ Placeholder.typeToken ++ Placeholder.interfacesToken

/-- How the constructor stores its argument. -/
def assignment : Backing → String
  | .string => "Value = value ?? string.Empty;"
  | _ => "Value = value;"

/-- The empty identifier. -/
def emptyMember : Backing → String
  | .nullableString => "public static readonly § Empty = new §(string.Empty);"
  | _ => "public static readonly § Empty = new §(∅);"

/-- The text of the value. -/
def display : Backing → String
  | .guid => "public override string ToString() => Value.ToString();"
  | .maskedGuid => "public override string ToString() => \"****\" + Value.ToString(\"N\").Substring(28);"
  | .string => "public override string ToString() => Value;"
  | .nullableString => "public override string? ToString() => Value;"
  | .int | .long | .decimal =>
    "public override string ToString() => Value.ToString(System.Globalization.CultureInfo.InvariantCulture);"

/-- Reads an identifier from text, or throws. -/
def parseMember : Backing → String
  | .guid | .maskedGuid => "public static § Parse(string value) => new §(¤.Parse(value));"
  | .string | .nullableString => "public static § Parse(¤ value) => new §(value);"
  | .int | .long | .decimal =>
    "public static § Parse(string value) => new §(¤.Parse(value, System.Globalization.CultureInfo.InvariantCulture));"

/-- The condition under which a value type is read from text. -/
def parseCondition : Backing → String
  | .guid | .maskedGuid => "if (¤.TryParse(value, out ¤ parsed))"
  | _ =>
    "if (¤.TryParse(value, System.Globalization.CultureInfo.InvariantCulture, out ¤ parsed))"

/-- Reads an identifier from text, or says that it cannot. -/
def tryParseBody (b : Backing) : Lines :=
  match b.storage with
  | .value => paragraphs
    [block (parseCondition b) ["result = new §(parsed);", "return true;"],
     ["result = default;", "return false;"]]
  | .text => paragraphs
    [block "if (value is null)" ["result = default;", "return false;"],
     ["result = new §(value);", "return true;"]]
  | .optionalText => ["result = new §(value?.Trim());", "return true;"]

/-- How an identifier is made from a value, and without one. -/
def constructors (b : Backing) : List Lines :=
  [block "public §(¤ value)" ["Validate(value);", assignment b],
   block "public §()" ["¤ value = ∅;", "Validate(value);", "Value = value;"]]

/-- A new identifier, where the backing can make one up. -/
def freshMember (b : Backing) : List Lines :=
  if b.isGuid then [["public static § New() => new §(System.Guid.NewGuid());"]] else []

/-- Whether there is a value, where it may be absent. -/
def presenceMember (b : Backing) : List Lines :=
  if b = .nullableString then [["public bool HasValue => Value is not null;"]] else []

/-- The whole value, where its text is masked. -/
def revealMember (b : Backing) : List Lines :=
  if b = .maskedGuid then [["public string Reveal() => Value.ToString();"]] else []

/-- The members of a base before the validation hook, in order. -/
def baseGroups (b : Backing) : List Lines :=
  let value : List Lines := [["public ¤ Value \x7b get; \x7d"]]
  let parsing : List Lines :=
    [[parseMember b],
     block "public static bool TryParse(string? value, out § result)" (tryParseBody b)]
  value ++ constructors b ++ freshMember b ++ [[(emptyMember b : Text)]] ++ presenceMember b
    ++ [[(display b : Text)]] ++ revealMember b ++ parsing

/-- The validation hook. Its statements come with line ends and indentation of their own. -/
def hookGroup : Lines :=
  ["    private static void Validate(¤ value)", "    \x7b",
   Placeholder.validateToken ++ "    \x7d".toList]

/-- The base fragment of a backing. -/
def base (b : Backing) : Fragment where
  header := header
  members := written b (paragraphs [indent (paragraphs (baseGroups b)), hookGroup])

end TypedId.Builtin
