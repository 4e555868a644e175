/-! Decimal numerals: reading the text of a number to the nearest double. -/

namespace RowFormula.Decimal

def digitValue (c : Char) : Nat :=
  c.toNat - '0'.toNat

/-- The number that a run of digits writes, on top of the digits already read. -/
def digitsFrom (start : Nat) (digits : List Char) : Nat :=
  digits.foldl (fun n c => 10 * n + digitValue c) start

def digitsValue (digits : List Char) : Nat :=
  digitsFrom 0 digits

/-- The leading ASCII digits of a text, and what follows them. -/
def spanDigits (text : List Char) : List Char × List Char :=
  text.span Char.isDigit

/-- A sign in front of a text, `true` for minus, and what follows it. -/
def takeSign : List Char → Bool × List Char
  | '-' :: rest => (true, rest)
  | '+' :: rest => (false, rest)
  | text => (false, text)

/-- A double with its sign turned when `negative`. -/
def signed (negative : Bool) (x : Float) : Float :=
  if negative then -x else x

/-- The double nearest to the integer that the digits write times `10 ^ exponent`. A
result so far out that it is infinite or zero whatever the digits are is answered without
the power.
-/
def nearest (digits : List Char) (exponent : Int) : Float :=
  let significant := digits.dropWhile (· == '0')
  let magnitude := exponent + significant.length
  -- A double lies below `10 ^ 309`, and what is below `10 ^ (-324)` rounds to zero.
  if significant.isEmpty then 0
  else if magnitude > 400 then 1.0 / 0.0
  else if magnitude < -400 then 0
  else Float.ofScientific (digitsValue significant) (exponent < 0) exponent.natAbs

/-- Reads the exponent that ends a numeral: an optional sign and at least one digit. -/
def exponent? (text : List Char) : Option Int :=
  match takeSign text with
  | (_, []) => none
  | (negative, digits) =>
    if digits.all Char.isDigit then
      some (if negative then -(digitsValue digits : Int) else digitsValue digits)
    else none

/-- Reads what follows the digits of a numeral: nothing, or `e` or `E` and an exponent. -/
def exponentPart? : List Char → Option (Option Int)
  | [] => some none
  | mark :: rest => if mark = 'e' || mark = 'E' then (exponent? rest).map some else none

/-- Reads an unsigned numeral: digits, an optional point with digits, and an optional
exponent, with at least one digit on either side of the point.
-/
def unsignedNumeral? (text : List Char) : Option Float :=
  let (whole, rest) := spanDigits text
  let (fraction, rest) := match rest with
    | '.' :: rest => spanDigits rest
    | rest => ([], rest)
  if whole.isEmpty && fraction.isEmpty then none
  else
    (exponentPart? rest).map fun exponent =>
      nearest (whole ++ fraction) (exponent.getD 0 - fraction.length)

/-- The names of the numbers that have no digits, whatever their letters' case. -/
def namedNumber? (text : List Char) : Option Float :=
  match String.ofList (text.map Char.toLower) with
  | "inf" => some (1.0 / 0.0)
  | "infinity" => some (1.0 / 0.0)
  | "nan" => some (0.0 / 0.0)
  | _ => none

/-- Reads a numeral with an optional sign to the nearest double. -/
def numeral? (text : List Char) : Option Float :=
  let (negative, rest) := takeSign text
  ((namedNumber? rest).or (unsignedNumeral? rest)).map (signed negative)

end RowFormula.Decimal
