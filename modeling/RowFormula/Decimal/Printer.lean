import RowFormula.Decimal.Shortest

/-! The text of a number: integers below `10 ^ 15` are written as integers, and every
other finite number with its shortest digits, always positionally and never with an
exponent.
-/

namespace RowFormula.Decimal

def digitText (n : Nat) : List Char :=
  Nat.toDigits 10 n

/-- The last digits of a natural number, as many as given, with zeros in front where it
has fewer.
-/
def lastDigits : Nat → Nat → List Char
  | 0, _ => []
  | width + 1, n => lastDigits width (n / 10) ++ [Nat.digitChar (n % 10)]

/-- Digits with trailing zeros removed. -/
def dropTrailingZeros (digits : List Char) : List Char :=
  (digits.reverse.dropWhile (· == '0')).reverse

/-- A decimal written out by position, without a point when it has no fraction. -/
def Shortest.positional (s : Shortest) : List Char :=
  match s.exponent with
  | .ofNat zeros => digitText s.digits ++ List.replicate zeros '0'
  | .negSucc k =>
    let places := k + 1
    let whole := digitText (s.digits / Nat.pow 10 places)
    match dropTrailingZeros (lastDigits places s.digits) with
    | [] => whole
    | fraction => whole ++ '.' :: fraction

/-- The text of a finite double. Negative zero is written as zero. -/
def Binary.text (b : Binary) : List Char :=
  if b.isWhole && b.wholeMagnitude < Nat.pow 10 15 then
    (toString b.wholePart).toList
  else
    (if b.negative then ['-'] else []) ++ b.shortest.positional

/-- The text of a double. -/
def numberText (x : Float) : String :=
  match Binary.ofFloat? x with
  | some b => String.ofList b.text
  | none => if x.isNaN then "NaN" else if x > 0 then "Infinity" else "-Infinity"

end RowFormula.Decimal
