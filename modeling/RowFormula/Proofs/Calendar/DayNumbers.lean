import Mathlib
import RowFormula.Calendar.CivilDate

/-! Every day number belongs to a date of the calendar, and the date has that day number. -/

namespace RowFormula.Calendar

-----------------------------------------------------------------------------------------
-- Days of a year
-----------------------------------------------------------------------------------------

/-- The date some days after 1 March of a year. -/
def CivilDate.ofMarch (year : Int) (inYear : Nat) : CivilDate :=
  let month := (5 * inYear + 2) / 153
  { year := if month < 10 then year else year + 1
    month := if month < 10 then month + 3 else month - 9
    day := inYear - daysBeforeMonth month + 1 }

section Year

variable {year : Int} {inYear : Nat}

/-- From March to December the year is the one that March began. -/
theorem ofMarch_early (early : (5 * inYear + 2) / 153 < 10)
    : CivilDate.ofMarch year inYear
      = ⟨year, (5 * inYear + 2) / 153 + 3,
          inYear - daysBeforeMonth ((5 * inYear + 2) / 153) + 1⟩ := by
  simp only [CivilDate.ofMarch, if_pos early]

theorem ofMarch_late (late : ¬(5 * inYear + 2) / 153 < 10)
    : CivilDate.ofMarch year inYear
      = ⟨year + 1, (5 * inYear + 2) / 153 - 9,
          inYear - daysBeforeMonth ((5 * inYear + 2) / 153) + 1⟩ := by
  simp only [CivilDate.ofMarch, if_neg late]

theorem dayNumber_ofMarch (short : inYear ≤ 365)
    : (CivilDate.ofMarch year inYear).dayNumber
      = daysBeforeYear year + inYear - epochOffset := by
  have reached : daysBeforeMonth ((5 * inYear + 2) / 153) ≤ inYear := by
    simp only [daysBeforeMonth]
    omega
  by_cases early : (5 * inYear + 2) / 153 < 10
  · have back : ((5 * inYear + 2) / 153 + 3 + 9) % 12 = (5 * inYear + 2) / 153 := by omega
    rw [ofMarch_early early]
    simp only [CivilDate.dayNumber, back, if_neg (show ¬(5 * inYear + 2) / 153 + 3 ≤ 2 by omega)]
    omega
  · have back : ((5 * inYear + 2) / 153 - 9 + 9) % 12 = (5 * inYear + 2) / 153 := by omega
    rw [ofMarch_late early]
    simp only [CivilDate.dayNumber, back, if_pos (show (5 * inYear + 2) / 153 - 9 ≤ 2 by omega),
      add_sub_cancel_right]
    omega

/-- The last of 366 days is the leap day that ends the year. -/
theorem ofMarch_exists (short : inYear ≤ 365)
    (leap : inYear = 365 → isLeapYear (year + 1) = true)
    : 1 ≤ (CivilDate.ofMarch year inYear).day
      ∧ (CivilDate.ofMarch year inYear).day
        ≤ daysInMonth (CivilDate.ofMarch year inYear).year
            (CivilDate.ofMarch year inYear).month := by
  by_cases early : (5 * inYear + 2) / 153 < 10
  · rw [ofMarch_early early]
    refine ⟨Nat.le_add_left _ _, ?_⟩
    obtain ⟨month, here⟩ : ∃ month, (5 * inYear + 2) / 153 = month := ⟨_, rfl⟩
    rw [here] at early ⊢
    interval_cases month <;> simp only [daysBeforeMonth, daysInMonth] <;> omega
  · rw [ofMarch_late early]
    refine ⟨Nat.le_add_left _ _, ?_⟩
    obtain ⟨month, here⟩ : ∃ month, (5 * inYear + 2) / 153 = month := ⟨_, rfl⟩
    have last : month ≤ 11 := by omega
    rw [here] at early ⊢
    interval_cases month <;> simp only [daysBeforeMonth, daysInMonth]
    · omega
    · by_cases day : inYear = 365
      · rw [if_pos (leap day)]
        omega
      · split <;> omega

end Year

-----------------------------------------------------------------------------------------
-- Years of a cycle
-----------------------------------------------------------------------------------------

/-- A day number cut into 400-year cycles, centuries, four years, years and days. -/
structure Parts (number : Int) where
  cycle : Int
  century : Nat
  four : Nat
  one : Nat
  inYear : Nat
  century_le : century ≤ 3
  four_le : four ≤ 24
  one_le : one ≤ 3
  inYear_le : inYear ≤ 365
  sum : number + epochOffset
    = 146097 * cycle + 36524 * century + 1461 * four + 365 * one + inYear
  /-- Only the last of four years has a leap day, and the last four years of a century only in
  the last century of a cycle.
  -/
  leap : inYear = 365 → one = 3 ∧ (four = 24 → century = 3)

namespace Parts

variable {number : Int} (parts : Parts number)

/-- The year that begins in March. -/
def year : Int :=
  400 * parts.cycle + (100 * parts.century + 4 * parts.four + parts.one : Nat)

theorem daysBeforeYear_year
    : daysBeforeYear parts.year + parts.inYear = number + epochOffset := by
  have century := parts.century_le
  have four := parts.four_le
  have one := parts.one_le
  have inFour : parts.year / 4 = 100 * parts.cycle + 25 * parts.century + parts.four := by
    simp only [year]
    omega
  have inCentury : parts.year / 100 = 4 * parts.cycle + parts.century := by
    simp only [year]
    omega
  have inCycle : parts.year / 400 = parts.cycle := by
    simp only [year]
    omega
  rw [daysBeforeYear, inFour, inCentury, inCycle, parts.sum, year]
  push_cast
  ring

theorem isLeapYear_next (last : parts.inYear = 365) : isLeapYear (parts.year + 1) = true := by
  obtain ⟨one, century⟩ := parts.leap last
  have four := parts.four_le
  have divided : parts.year + 1
      = 400 * parts.cycle + (100 * parts.century + 4 * parts.four + 4 : Nat) := by
    simp only [year, one]
    omega
  simp only [isLeapYear, divided, Bool.and_eq_true, Bool.or_eq_true, decide_eq_true_eq]
  refine ⟨by omega, ?_⟩
  by_cases lastFour : parts.four = 24
  · have lastCentury := century lastFour
    exact .inr (by omega)
  · exact .inl (by omega)

end Parts

/-- The parts into which the date of a day number is read. -/
def partsOf (number : Int) : Parts number :=
  let days := number + epochOffset
  let inCycle := (days % 146097).toNat
  let century := min (inCycle / 36524) 3
  let inCentury := inCycle - 36524 * century
  let four := inCentury / 1461
  let inFour := inCentury - 1461 * four
  let one := min (inFour / 365) 3
  { cycle := days / 146097
    century := century
    four := four
    one := one
    inYear := inFour - 365 * one
    century_le := by omega
    four_le := by omega
    one_le := by omega
    inYear_le := by omega
    sum := by omega
    leap := by omega }

theorem ofDayNumber_eq (number : Int)
    : CivilDate.ofDayNumber number
      = CivilDate.ofMarch (partsOf number).year (partsOf number).inYear :=
  rfl

theorem dayNumber_ofDayNumber (number : Int)
    : (CivilDate.ofDayNumber number).dayNumber = number := by
  rw [ofDayNumber_eq, dayNumber_ofMarch (partsOf number).inYear_le,
    (partsOf number).daysBeforeYear_year]
  omega

theorem ofDayNumber_exists (number : Int)
    : 1 ≤ (CivilDate.ofDayNumber number).day
      ∧ (CivilDate.ofDayNumber number).day
        ≤ daysInMonth (CivilDate.ofDayNumber number).year (CivilDate.ofDayNumber number).month :=
  ofMarch_exists (partsOf number).inYear_le (partsOf number).isLeapYear_next

end RowFormula.Calendar
