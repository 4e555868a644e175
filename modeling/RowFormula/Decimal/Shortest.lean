import RowFormula.Decimal.Binary

/-! The shortest decimal that reads back as a given double.

A double stands for every real number that rounds to it. Among the decimals in that
interval the one with the fewest digits is chosen, and of two with equally many digits the
nearer.
-/

namespace RowFormula.Decimal

/-- A non-negative decimal: `digits * 10 ^ exponent`. -/
structure Shortest where
  digits : Nat
  exponent : Int
  deriving Repr, DecidableEq

/-- The number of decimal digits of a natural number; zero has one. -/
def digitCount (n : Nat) : Nat :=
  (Nat.toDigits 10 n).length

/-- The reals that round to a double, in quarters of a unit in which all three points are
whole: the double itself and the two ends halfway to its neighbours.
-/
structure Rounding where
  low : Nat
  centre : Nat
  high : Nat
  /-- Whether the ends themselves round to the double. -/
  closed : Bool

/-- Whether a point, in the same quarter units, rounds to the double. -/
def Rounding.contains (r : Rounding) (point : Nat) : Bool :=
  if r.closed then r.low ≤ point && point ≤ r.high else r.low < point && point < r.high

/-- The factor that makes `2 ^ exponent` whole over a power of ten: two to the exponent,
or five to its negation.
-/
def decimalFactor (exponent : Int) : Nat :=
  Nat.pow 2 exponent.toNat * Nat.pow 5 (-exponent).toNat

/-- The rounding interval of a double. Below a power of two the neighbour is half as far,
except at the bottom of the range, where the spacing stays the same; ties go to the even
significand.
-/
def Binary.rounding (b : Binary) : Rounding :=
  let factor := decimalFactor b.exponent
  let below := if b.significand = Nat.pow 2 52 && b.exponent ≠ -1074 then 1 else 2
  { low := (4 * b.significand - below) * factor
    centre := 4 * b.significand * factor
    high := (4 * b.significand + 2) * factor
    closed := b.significand % 2 = 0 }

/-- The decimal on a grid that rounds to the double, if one of the double's two neighbours
on that grid does. Of two that do the nearer is taken, and the larger when they are
equally near.
-/
def Rounding.onGrid (r : Rounding) (spacing : Nat) : Option Nat :=
  let below := r.centre / spacing
  let lower := r.contains (below * spacing)
  let upper := r.contains ((below + 1) * spacing)
  -- An exact hit has distance zero, so the lower point also serves for it.
  if lower && (!upper || 2 * (r.centre - below * spacing) < spacing) then some below
  else if upper then some (below + 1)
  else none

/-- The shortest decimal of a double's absolute value, by trying grids of one digit, two
digits and so on; seventeen always suffice, and the last grid tried is exact.
-/
def Binary.shortest (b : Binary) : Shortest :=
  let r := b.rounding
  let count := digitCount (r.centre / 4)
  let scale := min b.exponent 0
  let found := (List.range count).findSome? fun i =>
    (r.onGrid (4 * Nat.pow 10 (count - 1 - i))).map fun digits => (digits, count - 1 - i)
  match found with
  | some (digits, place) => ⟨digits, place + scale⟩
  | none => ⟨r.centre / 4, scale⟩

end RowFormula.Decimal
