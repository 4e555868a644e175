import RowFormula.Calendar.Instant
import RowFormula.Decimal.Printer

/-! The text of an instant: `YYYY-MM-DDTHH:MM:SS` with a fraction and a final `Z`. -/

namespace RowFormula.Calendar

open RowFormula.Decimal

/-- A year: four digits from 0 to 9999, and a sign with at least four digits otherwise. -/
def yearText (year : Int) : List Char :=
  let digits := if year.natAbs < 10000 then lastDigits 4 year.natAbs else digitText year.natAbs
  if year < 0 then '-' :: digits
  else if year < 10000 then digits
  else '+' :: digits

/-- A date as `YYYY-MM-DD`. -/
def CivilDate.text (date : CivilDate) : List Char :=
  yearText date.year ++ '-' :: lastDigits 2 date.month ++ '-' :: lastDigits 2 date.day

def Instant.date (i : Instant) : CivilDate :=
  .ofDayNumber (i.seconds / secondsPerDay)

/-- The seconds since midnight, without the leap second. -/
def Instant.secondOfDay (i : Instant) : Nat :=
  (i.seconds % secondsPerDay).toNat

/-- The second of the minute; a leap second is number 60. -/
def Instant.second (i : Instant) : Nat :=
  i.secondOfDay % 60 + i.nanos / nanosPerSecond

/-- The nanoseconds since the start of the second. -/
def Instant.fraction (i : Instant) : Nat :=
  i.nanos % nanosPerSecond

/-- The date and time of an instant followed by a fraction, which brings its own point. -/
def Instant.textWith (i : Instant) (fraction : List Char) : String :=
  String.ofList (i.date.text ++ 'T' :: lastDigits 2 (i.secondOfDay / 3600)
    ++ ':' :: lastDigits 2 (i.secondOfDay / 60 % 60) ++ ':' :: lastDigits 2 i.second
    ++ fraction ++ ['Z'])

/-- The text shown to people: milliseconds, with what is below them cut off. -/
def Instant.text (i : Instant) : String :=
  i.textWith ('.' :: lastDigits 3 (i.fraction / 1000000))

/-- The text that keeps the whole instant: no fraction, or three, six or nine digits,
whichever are enough.
-/
def Instant.exactText (i : Instant) : String :=
  i.textWith <|
    if i.fraction = 0 then []
    else if i.fraction % 1000000 = 0 then '.' :: lastDigits 3 (i.fraction / 1000000)
    else if i.fraction % 1000 = 0 then '.' :: lastDigits 6 (i.fraction / 1000)
    else '.' :: lastDigits 9 i.fraction

end RowFormula.Calendar
