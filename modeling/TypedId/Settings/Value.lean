import TypedId.Decimal.Numeral
import TypedId.Text.Quoted

/-!
# Settings values

What a settings document or a variable can say. An integer without a sign of its own is natural;
documents with signed integers never hold one.
-/

namespace TypedId

inductive Value where
  | null
  | bool (value : Bool)
  | natural (value : Nat)
  | integer (value : Int)
  | real (value : Float)
  | text (value : Text)
  | list (items : List Value)
  /-- Entries with keys of their own, each once. -/
  | table (entries : List (Text × Value))
deriving Inhabited

namespace Value

/-- A value that is shown, between backticks. -/
def shown (sort : String) (value : Text) : Text :=
  sort.toList ++ [' ', '\x60'] ++ value ++ ['\x60']

/-- A truth value in words. -/
def boolText (b : Bool) : Text := (if b then "true" else "false").toList

/-- What was found where something else was expected. -/
def describe : Value → Text
  | null => "unit".toList
  | bool b => "bool ".toList ++ boolText b
  | natural n => shown "unsigned int" (Decimal.ofNat n)
  | integer z => shown "signed int" (Decimal.ofInt z)
  | real x => shown "float" (Decimal.ofFloat .plain x)
  | text s => "string ".toList ++ Text.quoted s
  | list _ => "sequence".toList
  | table _ => "map".toList

/-- The entries with one more, in place of an older one with the key. -/
def insertEntry (entries : List (Text × Value)) (key : Text) (value : Value) :
    List (Text × Value) :=
  entries.filter (·.1 ≠ key) ++ [(key, value)]

/-- Entries of which a later one replaces an earlier one with its key. -/
def tableOf (entries : List (Text × Value)) : Value :=
  table (entries.foldl (fun done e => insertEntry done e.1 e.2) [])

/-- A value under a path of keys, the outermost first. -/
def nest (path : List Text) (value : Value) : Value :=
  path.foldr (fun key inner => table [(key, inner)]) value

end Value
end TypedId
