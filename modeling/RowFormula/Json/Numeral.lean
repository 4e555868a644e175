import RowFormula.Decimal.Numeral
import RowFormula.Json.Basic

/-! The numbers that JSON numerals stand for.

A numeral without point and exponent is an integer when it fits 64 bits. Any other is
computed in doubles: as many leading digits as fit 64 bits are taken as an integer, the
digits after them only move the point, and the integer is multiplied or divided once by a
power of ten. The result may differ from the nearest double in its last place.
-/

namespace RowFormula.Json

open RowFormula.Decimal

/-- The first natural number that does not fit 64 bits. -/
def wordLimit : Nat := UInt64.size

/-- A numeral cut into its parts. -/
structure Numeral where
  negative : Bool
  whole : List Char
  /-- The digits after the point, none when there is no point. -/
  fraction : List Char
  exponent : Option Int
  deriving Repr, DecidableEq

/-- Adds digits to a number for as long as it fits 64 bits, and counts the digits left
over.
-/
def absorb (start : Nat) : List Char → Nat × Nat
  | [] => (start, 0)
  | c :: rest =>
    let next := 10 * start + digitValue c
    if next < wordLimit then absorb next rest else (start, rest.length + 1)

/-- Multiplies or divides by a power of ten in doubles, `none` when the result overflows.
Exponents below those of the doubles are reached in two steps or end at zero.
-/
def scaled (x : Float) (exponent : Int) : Option Float :=
  if exponent.natAbs ≤ 308 then
    let power := Float.ofScientific 1 false exponent.natAbs
    if exponent < 0 then some (x / power)
    else if (x * power).isFinite then some (x * power)
    else none
  else if x == 0 then some x
  else if 0 ≤ exponent then none
  else scaled (x / Float.ofScientific 1 false 308) (exponent + 308)
termination_by exponent.natAbs
decreasing_by omega

/-- The largest exponent that is computed with; a larger one means zero or overflow. -/
def exponentLimit : Nat := Nat.pow 2 31 - 1

/-- The double that the parts of a numeral stand for, `none` when it overflows. -/
def Numeral.real? (n : Numeral) : Option Float :=
  let (start, skipped) := absorb 0 n.whole
  let (significand, unread) := absorb start n.fraction
  -- Whole digits left over move the point right, and fraction digits taken move it left.
  let point : Int := (skipped : Int) - (n.fraction.length - unread : Nat)
  let exponent := n.exponent.getD 0
  let magnitude :=
    if exponentLimit < exponent.natAbs then
      -- So large an exponent decides alone, however far the point was moved.
      if significand = 0 || exponent < 0 then some 0 else none
    else scaled (Float.ofNat significand) (point + exponent)
  magnitude.map (signed n.negative)

/-- The tree of a numeral. Minus zero is the double. -/
def Numeral.toJson (n : Numeral) : Json :=
  let value := digitsValue n.whole
  if n.fraction.isEmpty && n.exponent.isNone && !n.negative && value < wordLimit then
    .integer value
  else if n.fraction.isEmpty && n.exponent.isNone && n.negative && value ≠ 0
      && value ≤ wordLimit / 2 then
    .integer (-value)
  else
    match n.real? with
    | some x => .real x
    | none => .unreadable

/-- Cuts a numeral into its parts: an optional minus, digits without a needless leading
zero, an optional point followed by digits, and an optional exponent.
-/
def Numeral.ofText? (text : List Char) : Option Numeral := do
  let (negative, rest) := match text with
    | '-' :: rest => (true, rest)
    | rest => (false, rest)
  let (whole, rest) := spanDigits rest
  guard (!whole.isEmpty && (whole.length = 1 || whole.head? ≠ some '0'))
  let (fraction, rest) ← match rest with
    | '.' :: rest =>
      match spanDigits rest with
      | ([], _) => none
      | (fraction, rest) => some (fraction, rest)
    | rest => some ([], rest)
  let exponent ← exponentPart? rest
  return {
    negative := negative, whole := whole, fraction := fraction, exponent := exponent }

end RowFormula.Json
