import TypedId.Settings.Value

/-!
# Merging settings

Two tables are united key by key; of two values of which one is no table a single one is kept.
-/

namespace TypedId

/-- Which of two values is kept. -/
inductive Precedence where
  /-- The later one. -/
  | later
  /-- The earlier one. -/
  | earlier
deriving DecidableEq, Repr

namespace Value

mutual

/-- Unites an earlier value with a later one. -/
def merge (p : Precedence) : Value → Value → Value
  | table l, table r =>
    table (mergeEntries p l r ++ r.filter fun e => (l.lookup e.1).isNone)
  | a, b =>
    match p with
    | .later => b
    | .earlier => a

/-- Unites the earlier entries with what the later ones say about their keys. -/
def mergeEntries (p : Precedence) :
    List (Text × Value) → List (Text × Value) → List (Text × Value)
  | [], _ => []
  | (key, a) :: l, r =>
    match r.lookup key with
    | some b => (key, merge p a b) :: mergeEntries p l r
    | none => (key, a) :: mergeEntries p l r

end

end Value
end TypedId
