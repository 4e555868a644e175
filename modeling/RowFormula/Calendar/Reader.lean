import RowFormula.Calendar.Instant
import RowFormula.Decimal.Numeral
import RowFormula.Text.Blank

/-! Reading instants from text.

Three forms are read where a text may be a date: `YYYY-MM-DDTHH:MM:SS` with an optional
fraction and an offset, `YYYY-MM-DD HH:MM:SS`, and `YYYY-MM-DD`. A fourth, looser form
with blanks between its parts is read where a date is required.
-/

namespace RowFormula.Calendar

open RowFormula.Decimal RowFormula.Text

/-- A date and time as written, not yet checked, with its offset from universal time in
seconds.
-/
structure Stamp where
  date : CivilDate
  hour : Nat := 0
  minute : Nat := 0
  second : Nat := 0
  nanos : Nat := 0
  offset : Int := 0

/-- The instant that a stamp names. Second 60 is the leap second after second 59. -/
def Stamp.instant? (s : Stamp) : Option Instant :=
  if s.date.isValid && s.hour < 24 && s.minute < 60 && s.second ≤ 60
      && -secondsPerDay < s.offset && s.offset < secondsPerDay then
    Instant.ofParts?
      (secondsPerDay * s.date.dayNumber
        + (3600 * s.hour + 60 * s.minute + min s.second 59 : Nat) - s.offset)
      (if s.second = 60 then nanosPerSecond + s.nanos else s.nanos)
  else none

/-- Reads at least `least` and at most `most` digits as a number. -/
def number? (least most : Nat) (text : List Char) : Option (Nat × List Char) :=
  let digits := (text.take most).takeWhile Char.isDigit
  if digits.length < least then none
  else some (digitsValue digits, text.drop digits.length)

def mark? (c : Char) : List Char → Option (List Char)
  | [] => none
  | head :: rest => if head = c then some rest else none

/-- Reads one of the three characters that may stand between a date and a time. -/
def separator? : List Char → Option (List Char)
  | 'T' :: rest => some rest
  | 't' :: rest => some rest
  | ' ' :: rest => some rest
  | _ => none

/-- Reads a fraction of a second, if there is one: a point and digits, of which the first
nine count.
-/
def fraction? : List Char → Option (Nat × List Char)
  | '.' :: rest =>
    match spanDigits rest with
    | ([], _) => none
    | (digits, rest) =>
      some (digitsValue ((digits ++ List.replicate 9 '0').take 9), rest)
  | text => some (0, text)

/-- Reads an offset: `Z`, or a sign and two digits of hours and of minutes. What may stand
between hours and minutes is read by `between`.
-/
def offset? (between : List Char → Option (List Char)) : List Char → Option (Int × List Char)
  | [] => none
  | sign :: rest =>
    if sign = 'Z' || sign = 'z' then some (0, rest)
    else if sign = '+' || sign = '-' || sign = '−' then do
      let (hours, rest) ← number? 2 2 rest
      let rest ← between rest
      let (minutes, rest) ← number? 2 2 rest
      if minutes < 60 then
        let seconds : Int := (3600 * hours + 60 * minutes : Nat)
        some (if sign = '+' then seconds else -seconds, rest)
      else none
    else none

/-- Reads the strict form of a date and time with an offset: every part has a fixed number
of digits.
-/
def strictStamp? (text : List Char) : Option (Stamp × List Char) := do
  let (year, rest) ← number? 4 4 text
  let (month, rest) ← number? 2 2 (← mark? '-' rest)
  let (day, rest) ← number? 2 2 (← mark? '-' rest)
  let (hour, rest) ← number? 2 2 (← separator? rest)
  let (minute, rest) ← number? 2 2 (← mark? ':' rest)
  let (second, rest) ← number? 2 2 (← mark? ':' rest)
  let (nanos, rest) ← fraction? rest
  let (offset, rest) ← offset? (mark? ':') rest
  return ({ date := ⟨year, month, day⟩, hour, minute, second, nanos, offset }, rest)

/-- Reads a year after blanks: up to four digits, or a sign and any number of them. -/
def year? (text : List Char) : Option (Int × List Char) :=
  match skipBlanks text with
  -- A sign lifts the limit of four digits.
  | '-' :: rest => (number? 1 rest.length rest).map fun (n, rest) => (-(n : Int), rest)
  | '+' :: rest => (number? 1 rest.length rest).map fun (n, rest) => ((n : Int), rest)
  | text => (number? 1 4 text).map fun (n, rest) => ((n : Int), rest)

/-- Reads one or two digits after blanks. -/
def part? (text : List Char) : Option (Nat × List Char) :=
  number? 1 2 (skipBlanks text)

/-- Reads a date whose parts may have blanks in front of them. `gap` is skipped before
each hyphen.
-/
def looseDate? (gap : List Char → List Char) (text : List Char)
    : Option (CivilDate × List Char) := do
  let (year, rest) ← year? text
  let (month, rest) ← part? (← mark? '-' (gap rest))
  let (day, rest) ← part? (← mark? '-' (gap rest))
  return (⟨year, month, day⟩, rest)

/-- Reads a time whose parts may have blanks in front of them. `gap` is skipped before
each colon.
-/
def looseTime? (gap : List Char → List Char) (text : List Char)
    : Option ((Nat × Nat × Nat) × List Char) := do
  let (hour, rest) ← part? text
  let (minute, rest) ← part? (← mark? ':' (gap rest))
  let (second, rest) ← part? (← mark? ':' (gap rest))
  return ((hour, minute, second), rest)

/-- The result of a reader that must use up the text. -/
def whole {α : Type} : α × List Char → Option α
  | (a, []) => some a
  | (_, _ :: _) => none

/-- Reads a local date and time, which is taken as universal time. -/
def dateTime? (text : List Char) : Option Instant := do
  let (date, rest) ← looseDate? id text
  let (hour, minute, second) ← (looseTime? id rest).bind whole
  Stamp.instant? { date := date, hour := hour, minute := minute, second := second }

def midnight? (text : List Char) : Option Instant :=
  ((looseDate? id text).bind whole).bind Instant.midnight?

/-- Reads a text that may be a date: the first of the three forms that names an instant.
-/
def instant? (text : String) : Option Instant :=
  let text := trimmed text.toList
  (((strictStamp? text).bind whole).bind Stamp.instant?).or
    ((dateTime? text).or (midnight? text))

/-- Reads the zone of the loose form: `UTC` in any case, or an offset with colons and
blanks between its hours and minutes.
-/
def zone? (text : List Char) : Option (Int × List Char) :=
  if (text.take 3).map upperAscii = ['U', 'T', 'C'] then some (0, text.drop 3)
  else offset? (fun rest => some (rest.dropWhile fun c => c = ':' || isBlank c)) text

/-- Reads a text that must be a date and time with a zone, in the loose form. -/
def zonedInstant? (text : String) : Option Instant := do
  let (date, rest) ← looseDate? skipBlanks text.toList
  let ((hour, minute, second), rest) ← looseTime? skipBlanks (← separator? rest)
  let (nanos, rest) ← fraction? rest
  let (offset, rest) ← zone? (skipBlanks rest)
  whole ((), skipBlanks rest)
  Stamp.instant? {
    date := date, hour := hour, minute := minute, second := second, nanos := nanos,
    offset := offset }

end RowFormula.Calendar
