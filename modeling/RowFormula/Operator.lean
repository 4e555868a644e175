import RowFormula.Decimal.Word
import RowFormula.Value.Basic

/-! The operators of formulas.

Every operator has a result for every pair of values. Which rule applies is decided by the
kinds of the two values; pairs that no rule covers give the operator's default.
-/

namespace RowFormula

open Calendar

/-- An operator. -/
inductive Operator where
  | add
  | subtract
  | multiply
  | divide
  | concat
  | equals
  | notEquals
  | greaterThan
  | lessThan
  | greaterThanOrEqual
  | lessThanOrEqual
  | and
  | or
  | not
  | dateAddDays
  deriving Repr, DecidableEq

namespace Operator

/-- The symbol by which an operator is shown. -/
def symbol : Operator → String
  | add => "+"
  | subtract => "-"
  | multiply => "*"
  | divide => "/"
  | concat => "&"
  | equals => "=="
  | notEquals => "!="
  | greaterThan => ">"
  | lessThan => "<"
  | greaterThanOrEqual => ">="
  | lessThanOrEqual => "<="
  | and => "AND"
  | or => "OR"
  | not => "NOT"
  | dateAddDays => "+days"

/-- Whether the operator takes only the value to its right. -/
def isUnary : Operator → Bool
  | not => true
  | _ => false

/-- The name by which an operator is stored. -/
def name : Operator → String
  | add => "ADD"
  | subtract => "SUBTRACT"
  | multiply => "MULTIPLY"
  | divide => "DIVIDE"
  | concat => "CONCAT"
  | equals => "EQUALS"
  | notEquals => "NOT_EQUALS"
  | greaterThan => "GREATER_THAN"
  | lessThan => "LESS_THAN"
  | greaterThanOrEqual => "GREATER_THAN_OR_EQUAL"
  | lessThanOrEqual => "LESS_THAN_OR_EQUAL"
  | and => "AND"
  | or => "OR"
  | not => "NOT"
  | dateAddDays => "DATE_ADD_DAYS"

def ofName? : String → Option Operator
  | "ADD" => some add
  | "SUBTRACT" => some subtract
  | "MULTIPLY" => some multiply
  | "DIVIDE" => some divide
  | "CONCAT" => some concat
  | "EQUALS" => some equals
  | "NOT_EQUALS" => some notEquals
  | "GREATER_THAN" => some greaterThan
  | "LESS_THAN" => some lessThan
  | "GREATER_THAN_OR_EQUAL" => some greaterThanOrEqual
  | "LESS_THAN_OR_EQUAL" => some lessThanOrEqual
  | "AND" => some and
  | "OR" => some or
  | "NOT" => some not
  | "DATE_ADD_DAYS" => some dateAddDays
  | _ => none

/-- A date moved by the whole days in a number of days. A number that is not finite does
not move it, and neither do more days than a span of time can have.
-/
def moved (d : Instant) (days : Float) : Instant :=
  match Decimal.word? days with
  | some days => if isSpan days.toInt then d.addDays days.toInt else d
  | none => d

/-- The sum: null is neutral, dates are moved by whole days and truth values joined by
"or".
-/
def sum : Value → Value → Value
  | .null, .null => .number 0
  | .null, v => v
  | v, .null => v
  | .number x, .number y => .number (x + y)
  | .date d, .number days => .date (moved d days)
  | .bool a, .bool b => .bool (a || b)
  | _, _ => .number 0

/-- The difference, by the same rules as the sum; a null on either side gives the other
side as it is.
-/
def difference : Value → Value → Value
  | .null, .null => .number 0
  | .null, v => v
  | v, .null => v
  | .number x, .number y => .number (x - y)
  | .date d, .number days => .date (moved d (-days))
  | .bool a, .bool b => .bool (a && !b)
  | _, _ => .number 0

/-- A number as a result; what is not finite becomes zero. -/
def finite (x : Float) : Value :=
  .number (if x.isFinite then x else 0)

/-- The quotient of the numbers that the values are read as, and `false` when there is
nothing to divide by.
-/
def quotient (left right : Value) : Value :=
  let divisor := right.toNumber
  if right.isNull || divisor == 0 then .bool false
  else finite (left.toNumber / divisor)

/-- The text of a value as part of a longer text: null is empty. -/
def part (v : Value) : String :=
  if v.isNull then "" else v.toText

/-- The order of two numbers, none when one of them is NaN. -/
def orderNumbers (x y : Float) : Option Ordering :=
  if x < y then some .lt
  else if x == y then some .eq
  else if y < x then some .gt
  else none

/-- The order of two texts, character by character. -/
def orderTexts (a b : String) : Ordering :=
  if a < b then .lt else if a = b then .eq else .gt

/-- The order of two values: only two numbers, two texts or two dates have one. -/
def order? : Value → Value → Option Ordering
  | .number x, .number y => orderNumbers x y
  | .text a, .text b => some (orderTexts a b)
  | .date a, .date b => some (a.order b)
  | _, _ => none

/-- Whether two values have an order that meets a condition. -/
def compares (left right : Value) (holds : Ordering → Bool) : Value :=
  .bool ((order? left right).any holds)

/-- A value as a side of "and": the text `false` does not hold. -/
def holdsInAnd : Value → Bool
  | .text s => s != "false" && Value.isTruthy (.text s)
  | v => v.isTruthy

/-- The integer at the start of a text: an optional sign and digits, if it fits 64 bits.
-/
def leadingInteger? (text : List Char) : Option Int64 :=
  match Decimal.takeSign text with
  | (negative, rest) =>
    match Decimal.spanDigits rest with
    | ([], _) => none
    | (digits, _) =>
      let value : Int := Decimal.digitsValue digits
      let value := if negative then -value else value
      let limit : Int := Nat.pow 2 63
      if -limit ≤ value && value < limit then some (Int64.ofInt value) else none

/-- The number of days that a value gives, zero when it gives none. -/
def daysOf : Value → Int64
  | .number x => (Decimal.word? x).getD 0
  | .text s => (leadingInteger? (Text.trimmed s.toList)).getD 0
  | _ => 0

/-- A date, possibly written as text, moved by the days of another value, and `false` when
there is no date.
-/
def movedByDays (left right : Value) : Value :=
  match left.toDate? with
  | some d => .date (moved d (Decimal.ofWord (daysOf right)))
  | none => .bool false

/-- Applies an operator to the values on its two sides. -/
def apply (op : Operator) (left right : Value) : Value :=
  match op with
  | add => sum left right
  | subtract => difference left right
  | multiply => finite (left.toNumber * right.toNumber)
  | divide => quotient left right
  | concat => .text (part left ++ part right)
  | equals => compares left right Ordering.isEq
  | notEquals => compares left right Ordering.isNe
  | greaterThan => compares left right Ordering.isGT
  | lessThan => compares left right Ordering.isLT
  | greaterThanOrEqual => compares left right Ordering.isGE
  | lessThanOrEqual => compares left right Ordering.isLE
  | and => .bool (holdsInAnd left && holdsInAnd right)
  | or => .bool (left.isTruthy || right.isTruthy)
  | not => .bool !right.isTruthy
  | dateAddDays => movedByDays left right

end Operator

end RowFormula
