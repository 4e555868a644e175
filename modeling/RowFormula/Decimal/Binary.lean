/-! Finite doubles as an integer times a power of two, read off their bit pattern, so that
whole parts and decimal digits are computed in exact integer arithmetic.
-/

namespace RowFormula.Decimal

/-- A finite double: `significand * 2 ^ exponent`, negated when `negative`. -/
structure Binary where
  negative : Bool
  significand : Nat
  exponent : Int
  deriving Repr, DecidableEq

/-- The 52 low bits of a double's pattern. -/
def fractionField (bits : Nat) : Nat :=
  bits % Nat.pow 2 52

/-- The 11 bits above the fraction. -/
def exponentField (bits : Nat) : Nat :=
  bits / Nat.pow 2 52 % Nat.pow 2 11

/-- Decodes a double; infinities and NaN, whose exponent field is full, have no decoding.
A zero exponent field marks the subnormals, which lack the leading bit.
-/
def Binary.ofFloat? (x : Float) : Option Binary :=
  let bits := x.toBits.toNat
  let negative := bits / Nat.pow 2 63 = 1
  match exponentField bits with
  | 2047 => none
  | 0 => some ⟨negative, fractionField bits, -1074⟩
  | field => some ⟨negative, fractionField bits + Nat.pow 2 52, field - 1075⟩

def Binary.wholeMagnitude (b : Binary) : Nat :=
  b.significand * Nat.pow 2 b.exponent.toNat / Nat.pow 2 (-b.exponent).toNat

def Binary.isWhole (b : Binary) : Bool :=
  b.significand * Nat.pow 2 b.exponent.toNat % Nat.pow 2 (-b.exponent).toNat = 0

/-- The value with its fraction dropped, that is, rounded toward zero. -/
def Binary.wholePart (b : Binary) : Int :=
  if b.negative then -(b.wholeMagnitude : Int) else b.wholeMagnitude

/-- The integer part of a finite double. -/
def wholePart? (x : Float) : Option Int :=
  (Binary.ofFloat? x).map Binary.wholePart

/-- An order key for all doubles: negative zero stands just below zero, and NaN beyond the
infinity of its sign.
-/
def totalKey (x : Float) : Int :=
  let bits := x.toBits.toNat
  if bits < Nat.pow 2 63 then bits else Nat.pow 2 63 - 1 - bits

end RowFormula.Decimal
