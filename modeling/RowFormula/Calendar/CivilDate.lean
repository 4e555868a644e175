/-! Dates of the proleptic Gregorian calendar and their day numbers, counted from
1970-01-01.

Years are counted from March, so that the leap day ends a year and months follow a fixed
pattern of lengths.
-/

namespace RowFormula.Calendar

/-- A calendar date; year 0 is the year before year 1. -/
structure CivilDate where
  year : Int
  month : Nat
  day : Nat
  deriving Repr, DecidableEq

def isLeapYear (year : Int) : Bool :=
  year % 4 = 0 && (year % 100 ≠ 0 || year % 400 = 0)

/-- The number of days in a month; a number that names no month has none. -/
def daysInMonth (year : Int) (month : Nat) : Nat :=
  match month with
  | 2 => if isLeapYear year then 29 else 28
  | 4 | 6 | 9 | 11 => 30
  | 1 | 3 | 5 | 7 | 8 | 10 | 12 => 31
  | _ => 0

/-- The first year that dates can have. -/
def firstYear : Int := -262143

/-- The last year that dates can have. -/
def lastYear : Int := 262142

/-- Whether the date exists and lies in the supported years. -/
def CivilDate.isValid (date : CivilDate) : Bool :=
  firstYear ≤ date.year && date.year ≤ lastYear
    && 1 ≤ date.day && date.day ≤ daysInMonth date.year date.month

/-- The days from 1 March of year 0 to 1 January 1970. -/
def epochOffset : Int := 719468

/-- The days before the first of a month in a year that starts with March as month 0. -/
def daysBeforeMonth (month : Nat) : Nat :=
  (153 * month + 2) / 5

/-- The days from 1 March of year 0 to 1 March of a year. -/
def daysBeforeYear (year : Int) : Int :=
  365 * year + year / 4 - year / 100 + year / 400

def CivilDate.dayNumber (date : CivilDate) : Int :=
  let year := if date.month ≤ 2 then date.year - 1 else date.year
  let month := (date.month + 9) % 12
  daysBeforeYear year + daysBeforeMonth month + date.day - 1 - epochOffset

/-- The date with a day number. The days of a 400-year cycle are split into centuries,
four-year cycles and years; the last century of a cycle and the last year of four are a
day longer, so their counts are capped.
-/
def CivilDate.ofDayNumber (number : Int) : CivilDate :=
  let days := number + epochOffset
  let inCycle := (days % 146097).toNat
  let century := min (inCycle / 36524) 3
  let inCentury := inCycle - 36524 * century
  let four := inCentury / 1461
  let inFour := inCentury - 1461 * four
  let one := min (inFour / 365) 3
  let inYear := inFour - 365 * one
  let month := (5 * inYear + 2) / 153
  let year := 400 * (days / 146097) + (100 * century + 4 * four + one : Nat)
  -- January and February end the year that March began.
  { year := if month < 10 then year else year + 1
    month := if month < 10 then month + 3 else month - 9
    day := inYear - daysBeforeMonth month + 1 }

end RowFormula.Calendar
