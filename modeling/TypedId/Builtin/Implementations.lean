import TypedId.Builtin.Layout
import TypedId.Capability
import TypedId.Fragment

/-!
# Built-in implementations

Behaviour for the struct body. Not every backing has every implementation: a masked identifier has
no order and no format, and only numbers have comparison operators.
-/

namespace TypedId.Builtin

def equalsMember : Storage → Lines
  | .value => ["public bool Equals(§ other) => Value.Equals(other.Value);"]
  | .text =>
    ["public bool Equals(§ other) => string.Equals(Value, other.Value, System.StringComparison.Ordinal);"]
  | .optionalText => choice "public bool Equals(§ other) => (Value, other.Value) switch"
    ["(null, null) => true,", "(null, _) or (_, null) => false,",
     "(_, _) => string.Equals(Value, other.Value, System.StringComparison.Ordinal),"]

def hashMember : Storage → String
  | .value => "public override int GetHashCode() => Value.GetHashCode();"
  | _ =>
    "public override int GetHashCode() => Value is null ? 0 : System.StringComparer.Ordinal.GetHashCode(Value);"

def equatable (s : Storage) : Lines :=
  paragraphs
    [equalsMember s,
     ["public override bool Equals(object? obj) => obj is § other && Equals(other);"],
     [(hashMember s : Text)],
     ["public static bool operator ==(§ a, § b) => a.Equals(b);"],
     ["public static bool operator !=(§ a, § b) => !(a == b);"]]

def comparable : Storage → Lines
  | .value => ["public int CompareTo(§ other) => Value.CompareTo(other.Value);"]
  | .text => ["public int CompareTo(§ other) => string.CompareOrdinal(Value, other.Value);"]
  | .optionalText => choice "public int CompareTo(§ other) => (Value, other.Value) switch"
    ["(null, null) => 0,", "(null, _) => -1,", "(_, null) => 1,",
     "(_, _) => string.CompareOrdinal(Value, other.Value),"]

def providerParse : Storage → String
  | .value =>
    "public static § Parse(string s, System.IFormatProvider? provider) => new §(¤.Parse(s, provider));"
  | _ => "public static § Parse(string s, System.IFormatProvider? provider) => new §(s);"

/-- The head of the method that reads an identifier, or says that it cannot. -/
def providerTryParse : Storage → String
  | .optionalText =>
    "public static bool TryParse(string? s, System.IFormatProvider? provider, out § result)"
  | _ =>
    "public static bool TryParse([System.Diagnostics.CodeAnalysis.NotNullWhen(true)] string? s, System.IFormatProvider? provider, out § result)"

def providerTryParseBody : Storage → Lines
  | .value => paragraphs
    [block "if (¤.TryParse(s, provider, out ¤ parsed))" ["result = new §(parsed);", "return true;"],
     ["result = default;", "return false;"]]
  | .text => paragraphs
    [block "if (s is null)" ["result = default;", "return false;"],
     ["result = new §(s);", "return true;"]]
  | .optionalText => ["result = new §(s?.Trim());", "return true;"]

def parsable (s : Storage) : Lines :=
  paragraphs
    [[(providerParse s : Text)], block (providerTryParse s) (providerTryParseBody s)]

def formattable : Lines :=
  ["public string ToString(string? format, System.IFormatProvider? formatProvider) => Value.ToString(format, formatProvider);"]

def comparisonOperators : Lines :=
  paragraphs
    [["public static bool operator <(§ a, § b) => a.Value < b.Value;"],
     ["public static bool operator <=(§ a, § b) => a.Value <= b.Value;"],
     ["public static bool operator >(§ a, § b) => a.Value > b.Value;"],
     ["public static bool operator >=(§ a, § b) => a.Value >= b.Value;"]]

/-- Refuses numbers below zero. -/
def notNegative : Lines :=
  block "if (value < 0)"
    ["throw new System.ArgumentOutOfRangeException(nameof(value), value, \"§ must not be negative.\");"]

/-- Refuses an absent string. -/
def notNull : Lines :=
  block "if (value is null)" ["throw new System.ArgumentNullException(nameof(value));"]

/-- The fragment of an implementation on a backing, where it means something. -/
def implementation (b : Backing) : Implementation → Option Fragment
  | .equatable => some { members := written b (indent (equatable b.storage)) }
  | .comparable =>
    if b = .maskedGuid then none
    else some { members := written b (indent (comparable b.storage)) }
  | .parsable => some { members := written b (indent (parsable b.storage)) }
  | .formattable =>
    if b.storage = .value ∧ b ≠ .maskedGuid then
      some { members := written b (indent formattable) }
    else none
  | .comparisonOperators =>
    if b.isNumeric then some { members := written b (indent comparisonOperators) } else none
  | .validation =>
    if b.isNumeric then some { hook := written b (indent (indent notNegative)) }
    else if b.storage = .text then some { hook := written b (indent (indent notNull)) }
    else none

end TypedId.Builtin
