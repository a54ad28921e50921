import TypedId.Placeholder

/-!
# Interfaces

The contracts that implementations declare, and the clause of the struct header that lists them.
-/

namespace TypedId

namespace Implementation

/-- The contracts that the type declares with this implementation. -/
def contracts : Implementation → List String
  | equatable =>
    ["System.IEquatable<\x7b\x7bTYPE\x7d\x7d>",
     "System.Numerics.IEqualityOperators<\x7b\x7bTYPE\x7d\x7d, \x7b\x7bTYPE\x7d\x7d, bool>"]
  | comparable => ["System.IComparable<\x7b\x7bTYPE\x7d\x7d>"]
  | parsable => ["System.IParsable<\x7b\x7bTYPE\x7d\x7d>"]
  | formattable => ["System.IFormattable"]
  | comparisonOperators =>
    ["System.Numerics.IComparisonOperators<\x7b\x7bTYPE\x7d\x7d, \x7b\x7bTYPE\x7d\x7d, bool>",
     "System.Numerics.IEqualityOperators<\x7b\x7bTYPE\x7d\x7d, \x7b\x7bTYPE\x7d\x7d, bool>"]
  | validation => []

end Implementation

namespace Interfaces

/-- The contracts of several implementations, each where it first appears. -/
def contracts (kinds : List Implementation) : List String :=
  (kinds.flatMap Implementation.contracts).eraseDups

/-- The clause that follows the type's name: nothing, or a colon and the contracts. -/
def clause (kinds : List Implementation) : Text :=
  match contracts kinds with
  | [] => []
  | listed => " : ".toList ++ ", ".toList.intercalate (listed.map String.toList)

end Interfaces
end TypedId
