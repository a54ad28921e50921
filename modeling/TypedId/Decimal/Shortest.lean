/-!
# Shortest decimals

A finite binary64 number is named by the fewest decimal digits that round back to it, and among
those by the nearest. Everything is exact arithmetic on the number `m · 2^q` that its bits denote.
-/

namespace TypedId.Decimal

/-- A finite non-negative binary64 number, `m · 2^q`. -/
structure Dyadic where
  m : Nat
  q : Int
  /-- The neighbour below is half as far away as the neighbour above. -/
  tightBelow : Bool

/-- The number that the bits of a finite value denote; the sign is left out. -/
def Dyadic.ofBits (bits : UInt64) : Dyadic :=
  let e := ((bits >>> 52) &&& 0x7FF).toNat
  let f := (bits &&& 0xFFFFFFFFFFFFF).toNat
  if e = 0 then ⟨f, -1074, false⟩ else ⟨Nat.pow 2 52 + f, (e : Int) - 1075, f = 0 && 1 < e⟩

/-- The decimal `digits · 10^exp`. -/
structure Scaled where
  digits : Nat
  exp : Int
deriving DecidableEq

/-- Compares `a · 10^i` with `n · 2^j`. -/
def compareScaled (a : Nat) (i : Int) (n : Nat) (j : Int) : Ordering :=
  compare (a * Nat.pow 10 i.toNat * Nat.pow 2 (-j).toNat)
    (n * Nat.pow 2 j.toNat * Nat.pow 10 (-i).toNat)

/-- Whether `d` lies among the reals that round to `x`. They reach half way to either neighbour,
ends included exactly when `m` is even. -/
def Dyadic.readsBack (x : Dyadic) (d : Scaled) : Bool :=
  let low := compareScaled d.digits d.exp (if x.tightBelow then 4 * x.m - 1 else 4 * x.m - 2) (x.q - 2)
  let high := compareScaled d.digits d.exp (4 * x.m + 2) (x.q - 2)
  let ends := x.m % 2 = 0
  (low = .gt || (ends && low = .eq)) && (high = .lt || (ends && high = .eq))

/-- The greatest multiple of `10^g` that is not above `x`, divided by `10^g`. -/
def Dyadic.floorAt (x : Dyadic) (g : Int) : Nat :=
  x.m * Nat.pow 2 x.q.toNat * Nat.pow 10 (-g).toNat /
    (Nat.pow 2 (-x.q).toNat * Nat.pow 10 g.toNat)

/-- The least `k` with `x < 10^k`, for a positive `x`. -/
def Dyadic.scale (x : Dyadic) : Int :=
  if 0 < x.floorAt 0 then (Nat.toDigits 10 (x.floorAt 0)).length
  else
    match (List.range 400).find? fun (j : Nat) => 0 < x.floorAt (-(j : Int)) with
    | some j => 1 - (j : Int)
    | none => 0

/-- Which of two decimals names the number half way between them. -/
inductive Tie where
  | up
  /-- The one whose last digit is even. -/
  | even
deriving DecidableEq, Repr

/-- The neighbour of `x` on the grid `10^g` that reads back; of two the nearer. -/
def Dyadic.onGrid? (x : Dyadic) (tie : Tie) (g : Int) : Option Scaled :=
  let below : Scaled := ⟨x.floorAt g, g⟩
  let above : Scaled := ⟨x.floorAt g + 1, g⟩
  match x.readsBack below, x.readsBack above with
  | true, true =>
    match compareScaled (2 * below.digits + 1) g (2 * x.m) x.q with
    | .gt => some below
    | .eq => if tie = .even ∧ below.digits % 2 = 0 then some below else some above
    | .lt => some above
  | true, false => some below
  | false, true => some above
  | false, false => none

/-- The decimal with the fewest digits that reads back. Seventeen digits always suffice; were they
not to, the answer is the exact value. -/
def Dyadic.shortest (x : Dyadic) (tie : Tie) : Scaled :=
  if x.m = 0 then ⟨0, 0⟩
  else
    match (List.range 17).findSome? fun n => x.onGrid? tie (x.scale - (n + 1 : Nat)) with
    | some d => d
    | none => ⟨x.m * Nat.pow 2 x.q.toNat * Nat.pow 5 (-x.q).toNat, min x.q 0⟩

end TypedId.Decimal
