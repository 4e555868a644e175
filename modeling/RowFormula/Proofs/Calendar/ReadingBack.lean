import RowFormula.Calendar.Printer
import RowFormula.Calendar.Reader
import RowFormula.Proofs.Calendar.DayNumbers
import RowFormula.Proofs.Calendar.Moving
import RowFormula.Proofs.Decimal.Digits

/-! The text of an instant is read back. From year 0 to year 9999 the printed date and time has
the strict form, so that only the fraction decides how much of the instant is kept.
-/

namespace RowFormula.Calendar

open RowFormula.Decimal RowFormula.Text

-----------------------------------------------------------------------------------------
-- Parts of a text
-----------------------------------------------------------------------------------------

theorem isBlank_of_isDigit {c : Char} (digit : c.isDigit = true) : isBlank c = false := by
  have range : 48 ≤ c.toNat ∧ c.toNat ≤ 57 := by
    simp only [Char.isDigit, Bool.and_eq_true, decide_eq_true_eq] at digit
    exact digit
  simp only [isBlank, blankRanges, List.any_cons, List.any_nil, Bool.or_eq_false_iff,
    Bool.and_eq_false_iff, decide_eq_false_iff_not, and_true]
  omega

/-- A text without blanks at its ends is not trimmed. -/
theorem trimmed_eq {text : List Char} (left : ∀ c ∈ text.head?, isBlank c = false)
    (right : ∀ c ∈ text.getLast?, isBlank c = false) : trimmed text = text := by
  have front : skipBlanks text = text := by
    cases text with
    | nil => rfl
    | cons first rest => simp [skipBlanks, left first rfl]
  have back : skipBlanks text.reverse = text.reverse := by
    rw [← List.head?_reverse] at right
    cases reversed : text.reverse with
    | nil => rfl
    | cons last rest => simp [skipBlanks, right last (by rw [reversed]; rfl)]
  rw [trimmed, front, back, List.reverse_reverse]

theorem exists_first_digit (width n : Nat)
    : ∃ first rest, lastDigits (width + 1) n = first :: rest ∧ first.isDigit = true := by
  obtain ⟨first, rest, digits⟩ : ∃ first rest, lastDigits (width + 1) n = first :: rest :=
    List.exists_cons_of_length_eq_add_one (length_lastDigits (width + 1) n)
  exact ⟨first, rest, digits, isDigit_of_mem_lastDigits (digits ▸ List.mem_cons_self)⟩

/-- A number of fixed width is read back unless it is too wide. -/
theorem number?_lastDigits {width n : Nat} {rest : List Char} (fits : n < 10 ^ width)
    : number? width width (lastDigits width n ++ rest) = some (n, rest) := by
  have taken : (lastDigits width n ++ rest).take width = lastDigits width n :=
    List.take_left' (length_lastDigits width n)
  have digits : (lastDigits width n).takeWhile Char.isDigit = lastDigits width n :=
    List.takeWhile_eq_self_iff.mpr fun c member => isDigit_of_mem_lastDigits member
  have dropped : (lastDigits width n ++ rest).drop width = rest :=
    List.drop_left' (length_lastDigits width n)
  simp only [number?, taken, digits, length_lastDigits, lt_irrefl, if_false, dropped,
    digitsValue_lastDigits, Nat.mod_eq_of_lt fits]

/-- What stands between the seconds and the final `Z` is read as so many nanoseconds. -/
def WritesFraction (fraction : List Char) (nanos : Nat) : Prop :=
  fraction? (fraction ++ ['Z']) = some (nanos, ['Z'])

theorem writesFraction_nil : WritesFraction [] 0 :=
  rfl

/-- Nanoseconds are written by up to nine digits that leave nothing out. -/
theorem writesFraction_lastDigits {width nanos : Nat} (most : width < 9) (small : nanos < 10 ^ 9)
    (whole : 10 ^ (8 - width) ∣ nanos)
    : WritesFraction ('.' :: lastDigits (width + 1) (nanos / 10 ^ (8 - width))) nanos := by
  have fits : nanos / 10 ^ (8 - width) < 10 ^ (width + 1) := by
    refine Nat.div_lt_of_lt_mul ?_
    rwa [← pow_add, show 8 - width + (width + 1) = 9 by omega]
  obtain ⟨first, rest, digits, -⟩ := exists_first_digit width (nanos / 10 ^ (8 - width))
  have span : spanDigits (first :: rest ++ ['Z']) = (first :: rest, ['Z']) := by
    rw [← digits]
    exact spanDigits_append (fun c member => isDigit_of_mem_lastDigits member) (by simp)
  have nine
      : (first :: rest ++ List.replicate 9 '0').take 9
        = first :: rest ++ List.replicate (8 - width) '0' := by
    have length : (first :: rest).length = width + 1 := by rw [← digits, length_lastDigits]
    rw [List.take_append, List.take_of_length_le (by omega), length, List.take_replicate]
    congr 2
    omega
  have value : digitsValue ((first :: rest ++ List.replicate 9 '0').take 9) = nanos := by
    rw [nine, digitsValue_append_zeros, ← digits, digitsValue_lastDigits, Nat.mod_eq_of_lt fits,
      Nat.div_mul_cancel whole]
  rw [digits, WritesFraction, List.cons_append, fraction?, span]
  simp only [value]

/-- The strict form of a date and time with a fraction and a final `Z`. -/
def strictText (year month day hour minute second : Nat) (fraction : List Char) : List Char :=
  lastDigits 4 year ++ '-' :: (lastDigits 2 month ++ '-' :: (lastDigits 2 day ++ 'T' ::
    (lastDigits 2 hour ++ ':' :: (lastDigits 2 minute ++ ':' :: (lastDigits 2 second
      ++ (fraction ++ ['Z']))))))

theorem strictStamp?_strictText {year month day hour minute second nanos : Nat}
    {fraction : List Char} (yearFits : year < 10 ^ 4) (monthFits : month < 10 ^ 2)
    (dayFits : day < 10 ^ 2) (hourFits : hour < 10 ^ 2) (minuteFits : minute < 10 ^ 2)
    (secondFits : second < 10 ^ 2) (written : WritesFraction fraction nanos)
    : strictStamp? (strictText year month day hour minute second fraction)
      = some ({ date := ⟨year, month, day⟩, hour, minute, second, nanos }, []) := by
  -- Every number is followed by the mark in front of the next part.
  refine Option.bind_eq_some_iff.mpr ⟨_, number?_lastDigits yearFits, ?_⟩
  refine Option.bind_eq_some_iff.mpr ⟨_, rfl, ?_⟩
  refine Option.bind_eq_some_iff.mpr ⟨_, number?_lastDigits monthFits, ?_⟩
  refine Option.bind_eq_some_iff.mpr ⟨_, rfl, ?_⟩
  refine Option.bind_eq_some_iff.mpr ⟨_, number?_lastDigits dayFits, ?_⟩
  refine Option.bind_eq_some_iff.mpr ⟨_, rfl, ?_⟩
  refine Option.bind_eq_some_iff.mpr ⟨_, number?_lastDigits hourFits, ?_⟩
  refine Option.bind_eq_some_iff.mpr ⟨_, rfl, ?_⟩
  refine Option.bind_eq_some_iff.mpr ⟨_, number?_lastDigits minuteFits, ?_⟩
  refine Option.bind_eq_some_iff.mpr ⟨_, rfl, ?_⟩
  refine Option.bind_eq_some_iff.mpr ⟨_, number?_lastDigits secondFits, ?_⟩
  exact Option.bind_eq_some_iff.mpr ⟨_, written, rfl⟩

theorem trimmed_strictText (year month day hour minute second : Nat) (fraction : List Char)
    : trimmed (strictText year month day hour minute second fraction)
      = strictText year month day hour minute second fraction := by
  obtain ⟨first, rest, digits, digit⟩ := exists_first_digit 3 year
  refine trimmed_eq (fun c start => ?_) (fun c last => ?_)
  · obtain rfl : first = c := by simpa [strictText, digits] using start
    exact isBlank_of_isDigit digit
  · obtain rfl : 'Z' = c := by
      simpa [strictText, List.getLast?_cons, List.getLast?_append] using last
    rfl

-----------------------------------------------------------------------------------------
-- Parts of an instant
-----------------------------------------------------------------------------------------

theorem fits_of_exists {year : Int} {month day : Nat} (first : 1 ≤ day)
    (last : day ≤ daysInMonth year month) : month < 10 ^ 2 ∧ day < 10 ^ 2 := by
  revert last
  fun_cases daysInMonth year month <;> omega

namespace Instant

variable {i : Instant}

theorem secondOfDay_lt (i : Instant) : i.secondOfDay < 86400 := by
  rw [secondOfDay, secondsPerDay]
  omega

theorem isLeap_iff : i.isLeap = true ↔ nanosPerSecond ≤ i.nanos :=
  decide_eq_true_iff

theorem nanos_eq (i : Instant)
    : i.nanos = if i.isLeap then nanosPerSecond + i.fraction else i.fraction := by
  have short := i.nanos_lt
  simp only [fraction, isLeap_iff]
  rw [nanosPerSecond] at short ⊢
  split <;> omega

/-- Second 60 of a minute is the leap second after second 59. -/
theorem second_cases (i : Instant)
    : i.isLeap = true ∧ i.secondOfDay % 60 = 59 ∧ i.second = 60
      ∨ i.isLeap = false ∧ i.second = i.secondOfDay % 60 := by
  have short := i.nanos_lt
  rw [second]
  by_cases leap : nanosPerSecond ≤ i.nanos
  · have ends := i.endsMinute leap
    refine .inl ⟨isLeap_iff.mpr leap, ?_⟩
    rw [secondOfDay, secondsPerDay]
    rw [nanosPerSecond] at leap short ⊢
    omega
  · refine .inr ⟨Bool.eq_false_iff.mpr (isLeap_iff.not.mpr leap), ?_⟩
    rw [nanosPerSecond] at leap ⊢
    omega

theorem second_eq_sixty_iff : i.second = 60 ↔ i.isLeap = true := by
  rcases i.second_cases with ⟨leap, -, sixty⟩ | ⟨regular, second⟩
  · simp only [leap, sixty]
  · have some : i.second ≠ 60 := by omega
    simp only [regular, some, Bool.false_eq_true]

theorem min_second (i : Instant) : min i.second 59 = i.secondOfDay % 60 := by
  rcases i.second_cases with ⟨-, last, sixty⟩ | ⟨-, second⟩ <;> omega

theorem second_le (i : Instant) : i.second ≤ 60 := by
  rcases i.second_cases with ⟨-, -, sixty⟩ | ⟨-, second⟩ <;> omega

/-- The year has the four digits of the strict form. -/
def HasFourDigits (i : Instant) : Prop :=
  0 ≤ i.date.year ∧ i.date.year ≤ 9999

instance : Decidable i.HasFourDigits :=
  inferInstanceAs (Decidable (_ ∧ _))

theorem toList_textWith (digits : i.HasFourDigits) (fraction : List Char)
    : (i.textWith fraction).toList
      = strictText i.date.year.natAbs i.date.month i.date.day (i.secondOfDay / 3600)
          (i.secondOfDay / 60 % 60) i.second fraction := by
  obtain ⟨first, last⟩ := digits
  have year : yearText i.date.year = lastDigits 4 i.date.year.natAbs := by
    have small : i.date.year.natAbs < 10000 := by omega
    have less : i.date.year < 10000 := by omega
    simp only [yearText, if_pos small, if_neg first.not_gt, if_pos less]
  rw [textWith, String.toList_ofList, CivilDate.text, year, strictText]
  simp only [List.append_assoc, List.cons_append]

theorem date_exists (i : Instant)
    : 1 ≤ i.date.day ∧ i.date.day ≤ daysInMonth i.date.year i.date.month :=
  ofDayNumber_exists (i.seconds / secondsPerDay)

theorem HasFourDigits.isValid_date (digits : i.HasFourDigits) : i.date.isValid = true := by
  obtain ⟨first, last⟩ := digits
  simp only [CivilDate.isValid, Bool.and_eq_true, decide_eq_true_eq]
  rw [firstYear, lastYear, and_assoc]
  exact ⟨by omega, i.date_exists⟩

/-- The date and time of an instant name its second. -/
theorem instant?_stamp {e : Instant} (digits : i.HasFourDigits) (seconds : e.seconds = i.seconds)
    (leap : e.isLeap = i.isLeap)
    : Stamp.instant? {
        date := i.date, hour := i.secondOfDay / 3600, minute := i.secondOfDay / 60 % 60,
        second := i.second, nanos := e.fraction }
      = some e := by
  have short := i.secondOfDay_lt
  have second := i.second_le
  rw [Stamp.instant?, if_pos, Instant.ofParts?_eq_some_iff]
  · refine ⟨?_, ?_⟩
    · have date : i.date.dayNumber = i.seconds / secondsPerDay := dayNumber_ofDayNumber _
      simp only [date, i.min_second, seconds]
      simp only [secondOfDay, secondsPerDay]
      omega
    · simp only [second_eq_sixty_iff, ← leap]
      exact e.nanos_eq
  · simp only [digits.isValid_date, Bool.and_eq_true, decide_eq_true_eq, true_and]
    rw [secondsPerDay]
    omega

/-- The strict form names an instant with the same seconds, in whose fraction it is read. -/
theorem instant?_textWith {e : Instant} {fraction : List Char} (digits : i.HasFourDigits)
    (seconds : e.seconds = i.seconds) (leap : e.isLeap = i.isLeap)
    (written : WritesFraction fraction e.fraction) : instant? (i.textWith fraction) = some e := by
  obtain ⟨monthFits, dayFits⟩ := fits_of_exists i.date_exists.1 i.date_exists.2
  have year : (i.date.year.natAbs : Int) = i.date.year := Int.natAbs_of_nonneg digits.1
  have yearFits : i.date.year.natAbs < 10 ^ 4 := by
    have last := digits.2
    omega
  have short := i.secondOfDay_lt
  have second := i.second_le
  have read := strictStamp?_strictText yearFits monthFits dayFits
    (show i.secondOfDay / 3600 < 10 ^ 2 by omega)
    (show i.secondOfDay / 60 % 60 < 10 ^ 2 by omega) (show i.second < 10 ^ 2 by omega) written
  rw [instant?, i.toList_textWith digits, trimmed_strictText]
  simp only [read, Option.bind_some, whole, year]
  rw [instant?_stamp digits seconds leap, Option.some_or]

theorem fraction_lt (i : Instant) : i.fraction < 10 ^ 9 :=
  Nat.mod_lt _ (by decide)

theorem instant?_exactText (digits : i.HasFourDigits) : instant? i.exactText = some i := by
  refine instant?_textWith digits rfl rfl ?_
  split_ifs with none millis micros
  · rw [none]
    exact writesFraction_nil
  · exact writesFraction_lastDigits (by decide) i.fraction_lt (Nat.dvd_of_mod_eq_zero millis)
  · exact writesFraction_lastDigits (by decide) i.fraction_lt (Nat.dvd_of_mod_eq_zero micros)
  · have written := @writesFraction_lastDigits 8 i.fraction (by decide) i.fraction_lt (one_dvd _)
    rwa [Nat.sub_self, pow_zero, Nat.div_one] at written

end Instant

-----------------------------------------------------------------------------------------
-- Whole milliseconds
-----------------------------------------------------------------------------------------

namespace Instant

variable {i : Instant}

/-- The instant without the part below one millisecond. -/
def wholeMillis (i : Instant) : Instant :=
  { i with
    nanos := i.nanos - i.nanos % 1000000
    nanos_lt := (Nat.sub_le _ _).trans_lt i.nanos_lt
    endsMinute := fun leap => i.endsMinute (leap.trans (Nat.sub_le _ _)) }

@[simp]
theorem seconds_wholeMillis (i : Instant) : i.wholeMillis.seconds = i.seconds :=
  rfl

@[simp]
theorem nanos_wholeMillis (i : Instant)
    : i.wholeMillis.nanos = i.nanos - i.nanos % 1000000 :=
  rfl

theorem isLeap_wholeMillis (i : Instant) : i.wholeMillis.isLeap = i.isLeap := by
  rw [Bool.eq_iff_iff, isLeap_iff, isLeap_iff, nanos_wholeMillis, nanosPerSecond]
  omega

theorem fraction_wholeMillis (i : Instant)
    : i.wholeMillis.fraction = 1000000 * (i.fraction / 1000000) := by
  simp only [fraction, nanos_wholeMillis, nanosPerSecond]
  omega

theorem instant?_text (digits : i.HasFourDigits) : instant? i.text = some i.wholeMillis := by
  refine instant?_textWith digits i.seconds_wholeMillis i.isLeap_wholeMillis ?_
  have whole : 1000000 ∣ i.wholeMillis.fraction := ⟨_, i.fraction_wholeMillis⟩
  have millis : i.fraction / 1000000 = i.wholeMillis.fraction / 1000000 := by
    rw [fraction_wholeMillis, Nat.mul_div_cancel_left _ (by decide)]
  rw [millis]
  exact writesFraction_lastDigits (by decide) i.wholeMillis.fraction_lt whole

theorem ofParts?_wholeMillis (seconds : Int) (nanos : Nat)
    : ofParts? seconds (nanos - nanos % 1000000) = (ofParts? seconds nanos).map wholeMillis := by
  have short : nanos - nanos % 1000000 < 2 * nanosPerSecond ↔ nanos < 2 * nanosPerSecond := by
    rw [nanosPerSecond]
    omega
  have leap : nanosPerSecond ≤ nanos - nanos % 1000000 ↔ nanosPerSecond ≤ nanos := by
    rw [nanosPerSecond]
    omega
  simp only [ofParts?, short, leap]
  split <;> rfl

theorem outsideLeap_wholeMillis (i : Instant) (forward : Bool)
    : i.wholeMillis.outsideLeap forward
      = ((i.outsideLeap forward).1,
          (i.outsideLeap forward).2 - (i.outsideLeap forward).2 % 1000000) := by
  simp only [outsideLeap, isLeap_wholeMillis, seconds_wholeMillis, nanos_wholeMillis]
  split
  · next leap =>
      have long := isLeap_iff.mp leap
      simp only [Prod.mk.injEq, true_and]
      rw [nanosPerSecond] at long ⊢
      omega
  · rfl

/-- Moves keep what is above one millisecond. -/
theorem addDays_wholeMillis (i : Instant) (days : Int)
    : i.wholeMillis.addDays days = (i.addDays days).wholeMillis := by
  by_cases none : days = 0
  · simp only [addDays, if_pos none]
  · simp only [addDays, if_neg none, outsideLeap_wholeMillis, ofParts?_wholeMillis]
    cases ofParts? _ _ <;> rfl

end Instant

end RowFormula.Calendar
