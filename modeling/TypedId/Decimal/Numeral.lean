import TypedId.Text.Search
import TypedId.Decimal.Shortest

/-!
# Numerals

Integers in plain decimal digits. Binary64 numbers with the shortest digits that read back, laid out
in a style: positionally, or with a power of ten where the number is far from one.
-/

namespace TypedId.Decimal

def ofNat (n : Nat) : Text := Nat.toDigits 10 n

def ofInt (z : Int) : Text := if z < 0 then '-' :: ofNat z.natAbs else ofNat z.natAbs

/-- Digits and exponent without the zeros at the end of the digits. -/
def trimZeros (digits : Text) (exp : Int) : Text × Int :=
  let kept := (digits.reverse.dropWhile (· = '0')).reverse
  (kept, exp + (digits.length - kept.length : Nat))

/-- A decimal in positional notation. -/
def Scaled.positional (d : Scaled) : Text :=
  let (digits, exp) := trimZeros (ofNat d.digits) d.exp
  if digits = [] then ['0']
  else if 0 ≤ exp then digits ++ List.replicate exp.toNat '0'
  else
    let places := (-exp).toNat
    if places < digits.length then
      digits.take (digits.length - places) ++ '.' :: digits.drop (digits.length - places)
    else '0' :: '.' :: List.replicate (places - digits.length) '0' ++ digits

/-- A decimal with a power of ten: one digit, the others after a point, and the exponent with its
sign. -/
def Scaled.scientific (d : Scaled) : Text :=
  let (digits, exp) := trimZeros (ofNat d.digits) d.exp
  let power := exp + (digits.length - 1 : Nat)
  let fraction := if digits.length ≤ 1 then [] else '.' :: digits.drop 1
  digits.take 1 ++ fraction ++ ['e', if power < 0 then '-' else '+'] ++ ofNat power.natAbs

/-- The power of ten of the first digit that is not zero. -/
def Scaled.power (d : Scaled) : Int := d.exp + ((ofNat d.digits).length - 1 : Nat)

/-- How numbers are laid out. -/
structure Style where
  /-- The least and the greatest power of ten of the first digit that still allow positional
  notation; without them all do. -/
  positional : Option (Int × Int)
  /-- A whole number in positional notation has a point and a zero. -/
  pointed : Bool
  /-- What becomes of a number half way between two decimals. -/
  tie : Tie

/-- Positional throughout, and without a point where none is needed. -/
def Style.plain : Style := ⟨none, false, .up⟩

/-- Positional from `10^-5` and below `10^16`, and never without a point there. -/
def Style.pointed16 : Style := ⟨some (-5, 15), true, .even⟩

/-- A decimal in a style. -/
def Style.layout (style : Style) (d : Scaled) : Text :=
  let far : Bool := match style.positional with
    | some (least, greatest) => d.digits ≠ 0 && (d.power < least || greatest < d.power)
    | none => false
  if far then d.scientific
  else
    let s := d.positional
    if style.pointed && !s.contains '.' then s ++ ['.', '0'] else s

/-- A binary64 number in a style. -/
def ofFloat (style : Style) (x : Float) : Text :=
  if x.isNaN then "NaN".toList
  else
    let sign := if x.toBits >>> 63 = 1 then ['-'] else []
    if x.isInf then sign ++ "inf".toList
    else sign ++ style.layout ((Dyadic.ofBits x.toBits).shortest style.tie)

/-! ### Reading -/

/-- The value of a run of decimal digits. -/
def natOfDigits (digits : Text) : Nat := digits.foldl (fun n c => 10 * n + (c.toNat - 48)) 0

/-- A sign, if there is one, and the rest; the flag says whether it is a minus. -/
def takeSign : Text → Bool × Text
  | '-' :: s => (true, s)
  | '+' :: s => (false, s)
  | s => (false, s)

/-- An integer: a sign if wanted, then digits and nothing else. -/
def readInt? (s : Text) : Option Int :=
  let (negative, digits) := takeSign s
  if digits ≠ [] ∧ digits.all Char.isDigit then
    some (if negative then -(natOfDigits digits : Int) else natOfDigits digits)
  else none

/-- The binary64 number nearest to `m · 10^e`. Beyond the range it is zero or infinite, whatever
the exponent. -/
def nearest (m : Nat) (e : Int) : Float :=
  let magnitude := e + (ofNat m).length
  if m = 0 ∨ magnitude < -400 then 0
  else if 400 < magnitude then Float.ofScientific 1 false 400
  else Float.ofScientific m (e < 0) e.natAbs

/-- A number with digits before or after a point, and an exponent if wanted. -/
def readFloat? (s : Text) : Option Float :=
  let (negative, s) := takeSign s
  let whole := s.takeWhile Char.isDigit
  let s := s.dropWhile Char.isDigit
  let (fraction, s) : Text × Text := match s with
    | '.' :: r => (r.takeWhile Char.isDigit, r.dropWhile Char.isDigit)
    | r => ([], r)
  let exponent : Option Int := match s with
    | [] => some 0
    | c :: r => if c = 'e' ∨ c = 'E' then readInt? r else none
  if whole = [] ∧ fraction = [] then none
  else exponent.map fun e =>
    let x := nearest (natOfDigits (whole ++ fraction)) (e - fraction.length)
    if negative then -x else x

end TypedId.Decimal
