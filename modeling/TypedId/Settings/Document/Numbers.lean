import TypedId.Settings.Value
import TypedId.Settings.Quoting

/-!
# Numbers of documents

Integers are decimal with a sign, or hexadecimal, octal or binary behind their marks, and fit in 64
signed bits. An underscore may stand between two digits. A number with a fraction or an exponent is
a binary64 number, and may not be too large for one.
-/

namespace TypedId.Settings.Document

/-- Further digits; an underscore only before another digit. -/
def moreDigits (p : Char → Bool) : Text → Text × Text
  | '_' :: c :: s =>
    if p c then ((c :: (moreDigits p s).1), (moreDigits p s).2) else ([], '_' :: c :: s)
  | c :: s => if p c then ((c :: (moreDigits p s).1), (moreDigits p s).2) else ([], c :: s)
  | [] => ([], [])

/-- One or more digits, without the underscores between them. -/
def digits? (p : Char → Bool) : Text → Option (Text × Text)
  | c :: s => if p c then some ((c :: (moreDigits p s).1), (moreDigits p s).2) else none
  | [] => none

/-- The sign of a number as it is written. -/
def sign (s : Text) : Text × Text :=
  match s with
  | '+' :: r => (['+'], r)
  | '-' :: r => (['-'], r)
  | r => ([], r)

/-- The digits before the point: no zero in front of others. -/
def wholeDigits? : Text → Option (Text × Text)
  | '0' :: s => some (['0'], s)
  | s => digits? Char.isDigit s

/-- A point and the digits after it. -/
def fraction? : Text → Option (Text × Text)
  | '.' :: s => (digits? Char.isDigit s).map fun r => ('.' :: r.1, r.2)
  | _ => none

/-- The mark, the sign and the digits of an exponent. -/
def exponent? : Text → Option (Text × Text)
  | c :: s =>
    if c = 'e' || c = 'E' then
      (digits? Char.isDigit (sign s).2).map fun r => ('e' :: (sign s).1 ++ r.1, r.2)
    else none
  | [] => none

/-- An integer that fits. -/
def integer? (z : Int) : Option Value :=
  if -Int.pow 2 63 ≤ z && z < Int.pow 2 63 then some (.integer z) else none

/-- Digits to the base of their mark. -/
def based? (base : Nat) (s : Text) : Option (Value × Text) := do
  let isDigit (c : Char) : Bool := match hexDigit? c with
    | some n => n < base
    | none => false
  let (digits, rest) ← digits? isDigit s
  let value := digits.foldl (fun n c => base * n + (hexDigit? c).getD 0) 0
  return (← integer? value, rest)

/-- Infinity and not-a-number. -/
def special? (s : Text) : Option (Value × Text) :=
  let (sign, s) := sign s
  let signed (x : Float) : Value := .real (if sign = ['-'] then -x else x)
  match s with
  | 'i' :: 'n' :: 'f' :: rest => some (signed (1 / 0), rest)
  | 'n' :: 'a' :: 'n' :: rest => some (signed (0 / 0), rest)
  | _ => none

/-- A decimal number. -/
def decimal? (s : Text) : Option (Value × Text) := do
  let (sign, s) := sign s
  let (whole, s) ← wholeDigits? s
  let fraction := fraction? s
  let (fractionText, s) := fraction.getD ([], s)
  let exponent := exponent? s
  let (exponentText, s) := exponent.getD ([], s)
  if fraction.isNone && exponent.isNone then
    return (← (Decimal.readInt? (sign ++ whole)).bind integer?, s)
  else
    let x ← Decimal.readFloat? (sign ++ whole ++ fractionText ++ exponentText)
    if x.isInf && 0 < x then none else return (.real x, s)

/-- Any number. -/
def number? : Text → Option (Value × Text)
  | '0' :: 'x' :: s => based? 16 s
  | '0' :: 'o' :: s => based? 8 s
  | '0' :: 'b' :: s => based? 2 s
  | s => (special? s).or (decimal? s)

end TypedId.Settings.Document
