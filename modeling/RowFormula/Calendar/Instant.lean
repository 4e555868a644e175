import RowFormula.Calendar.CivilDate

/-! Instants of coordinated universal time to the nanosecond, leap seconds included. -/

namespace RowFormula.Calendar

def secondsPerDay : Int := 86400

def nanosPerSecond : Nat := 1000000000

/-- The first second of the supported years. -/
def firstSecond : Int :=
  secondsPerDay * CivilDate.dayNumber ⟨firstYear, 1, 1⟩

/-- The last second of the supported years. -/
def lastSecond : Int :=
  secondsPerDay * CivilDate.dayNumber ⟨lastYear, 12, 31⟩ + 86399

/-- An instant: seconds since 1970-01-01 without leap seconds, and nanoseconds. A leap
second extends the last second of its minute by another `nanosPerSecond` nanoseconds.
-/
structure Instant where
  seconds : Int
  nanos : Nat
  inRange : firstSecond ≤ seconds ∧ seconds ≤ lastSecond
  nanos_lt : nanos < 2 * nanosPerSecond
  endsMinute : nanosPerSecond ≤ nanos → seconds % 60 = 59
  deriving Repr, DecidableEq

/-- The instant with the given parts, if there is one. -/
def Instant.ofParts? (seconds : Int) (nanos : Nat) : Option Instant :=
  if h : (firstSecond ≤ seconds ∧ seconds ≤ lastSecond) ∧ nanos < 2 * nanosPerSecond
      ∧ (nanosPerSecond ≤ nanos → seconds % 60 = 59) then
    some ⟨seconds, nanos, h.1, h.2.1, h.2.2⟩
  else none

/-- Whether the instant lies inside a leap second. -/
def Instant.isLeap (i : Instant) : Bool :=
  nanosPerSecond ≤ i.nanos

/-- The milliseconds since 1970-01-01, rounded down. -/
def Instant.millis (i : Instant) : Int :=
  1000 * i.seconds + (i.nanos / 1000000 : Nat)

/-- Instants are ordered by seconds and then by nanoseconds. -/
def Instant.order (a b : Instant) : Ordering :=
  (compare a.seconds b.seconds).then (compare a.nanos b.nanos)

/-- Midnight of a date, if the date exists. -/
def Instant.midnight? (date : CivilDate) : Option Instant :=
  if date.isValid then ofParts? (secondsPerDay * date.dayNumber) 0 else none

/-- Whether so many days are a span of time: their milliseconds fit a signed word. -/
def isSpan (days : Int) : Bool :=
  (86400000 * days).natAbs < Nat.pow 2 63

/-- The instant outside of a leap second from which whole days are counted: the same
fraction of the second before it when counting forward, and of the second after it
otherwise.
-/
def Instant.outsideLeap (i : Instant) (forward : Bool) : Int × Nat :=
  if i.isLeap then
    (if forward then i.seconds else i.seconds + 1, i.nanos - nanosPerSecond)
  else (i.seconds, i.nanos)

/-- The instant some whole days later, or the instant itself when the result would leave
the supported years.
-/
def Instant.addDays (i : Instant) (days : Int) : Instant :=
  -- Without a move an instant stays in its leap second.
  if days = 0 then i
  else
    let (seconds, nanos) := i.outsideLeap (0 < days)
    (ofParts? (seconds + secondsPerDay * days) nanos).getD i

end RowFormula.Calendar
