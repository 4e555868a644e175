import RowFormula.Calendar.Printer
import RowFormula.Calendar.Reader
import RowFormula.Decimal.Numeral
import RowFormula.Decimal.Printer
import RowFormula.Text.Blank

/-! Values of variables and properties, and their loose readings as numbers, truth values,
dates and text.
-/

namespace RowFormula

open Calendar

/-- A value. Lists come from properties with several values; a range has two ends. -/
inductive Value where
  | null
  | number (x : Float)
  | bool (b : Bool)
  | text (s : String)
  | date (d : Instant)
  | list (items : List Value)
  | range (lower upper : Value)
  deriving Inhabited

namespace Value

def kindName : Value → String
  | null => "null"
  | number _ => "number"
  | bool _ => "boolean"
  | text _ => "string"
  | date _ => "date"
  | list _ => "list"
  | range .. => "range"

/-- Whether the value is null. -/
def isNull : Value → Bool
  | null => true
  | _ => false

/-- The number that stands for what cannot be read as one. -/
def notANumber : Float := 0.0 / 0.0

/-- The number that a text writes between blanks: zero when there is nothing else. -/
def numberOfText (s : String) : Float :=
  match Text.trimmed s.toList with
  | [] => 0
  | numeral => (Decimal.numeral? numeral).getD notANumber

mutual

/-- The value read as a number. A date counts its milliseconds, and a list of one value is
read as that value.
-/
def toNumber : Value → Float
  | null => 0
  | number x => x
  | bool b => if b then 1 else 0
  | text s => numberOfText s
  | date d => Float.ofInt d.millis
  | list items => numberOfItems items
  | range .. => notANumber

/-- The number that the items of a list are read as. -/
def numberOfItems : List Value → Float
  | [] => 0
  | [item] => item.toNumber
  | _ => notANumber

end

/-- The value read as a condition: null, zero, NaN, the empty text and `false` do not
hold.
-/
def isTruthy : Value → Bool
  | null => false
  | number x => x != 0 && !x.isNaN
  | bool b => b
  | text s => !s.isEmpty
  | date _ => true
  | list _ => true
  | range .. => true

/-- The value read as a date. Only dates and texts can be. -/
def toDate? : Value → Option Instant
  | date d => some d
  | text s => instant? s
  | _ => none

mutual

def toText : Value → String
  | null => "null"
  | number x => Decimal.numberText x
  | bool b => if b then "true" else "false"
  | text s => s
  | date d => d.text
  | list items => textOfItems items
  | range lower upper => lower.toText ++ " - " ++ upper.toText

/-- The texts of a list's items with commas between them. -/
def textOfItems : List Value → String
  | [] => ""
  | [item] => item.toText
  | item :: rest => item.toText ++ "," ++ textOfItems rest

end

/-- Midnight of a date, null when there is no such date. -/
def midnight (date : CivilDate) : Value :=
  ((Instant.midnight? date).map Value.date).getD null

end Value

end RowFormula
