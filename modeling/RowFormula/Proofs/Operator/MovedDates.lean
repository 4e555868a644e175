import RowFormula.Operator
import RowFormula.Proofs.Calendar.Moving
import RowFormula.Proofs.Decimal.Truncation
import RowFormula.Proofs.Decimal.Words

/-! Dates moved by a number of days. The days may pass through a double and a word on the way,
where large ones are rounded or cut off, but those lead out of the supported years before and
after.
-/

namespace RowFormula

open Calendar Decimal

-----------------------------------------------------------------------------------------
-- Rounded days
-----------------------------------------------------------------------------------------

/-- Days that were rounded move a date as far as they did before. -/
theorem Calendar.Instant.addDays_of_rounded {d : Instant} {n r : Int} (rounded : Rounded n r)
    : d.addDays r = d.addDays n := by
  rcases rounded with rfl | ⟨large, stillLarge⟩
  · rfl
  · rw [d.addDays_of_far (by omega), d.addDays_of_far (by omega)]

namespace Operator

variable {d : Instant} {days : Float} {n : Int}

theorem moved_of_none (none : wholePart? days = none) : moved d days = d := by
  rw [moved, word?, none]
  rfl

/-- Neither the cast to a word nor the limit of a span of time shows. -/
theorem moved_of_wholePart {r : Int} (whole : wholePart? days = some r) (rounded : Rounded n r)
    : moved d days = d.addDays n := by
  have cut := rounded.trans (rounded_ofIntClamp r)
  rw [← Instant.addDays_of_rounded cut, moved, word?, whole, Option.map_some]
  split
  · next days same =>
      obtain rfl := Option.some.inj same
      split
      · rfl
      · next noSpan =>
          have long : ¬(86400000 * (Int64.ofIntClamp r).toInt).natAbs < Nat.pow 2 63 := by
            simpa only [isSpan, decide_eq_true_eq] using noSpan
          rw [Nat.pow_eq] at long
          exact (Instant.addDays_of_far (by omega)).symm
  · next none => cases none

theorem moved_ofWord (word : Int64) : moved d (ofWord word) = d.addDays word.toInt := by
  obtain ⟨r, whole, rounded⟩ := rounded_ofWord word
  exact moved_of_wholePart whole rounded

/-- What is read as a date is moved by the days of the other side. -/
theorem dateAddDays_eq {left right : Value} (read : left.toDate? = some d)
    : Operator.dateAddDays.apply left right = .date (d.addDays (daysOf right).toInt) := by
  rw [apply, movedByDays, read]
  exact congrArg Value.date (moved_ofWord _)

theorem add_number (whole : wholePart? days = some n)
    : Operator.add.apply (.date d) (.number days) = .date (d.addDays n) :=
  congrArg Value.date (moved_of_wholePart whole (.inl rfl))

theorem subtract_number (whole : wholePart? days = some n)
    : Operator.subtract.apply (.date d) (.number days) = .date (d.addDays (-n)) := by
  have opposite : wholePart? (-days) = some (-n) := by
    rw [wholePart?_neg, whole]
    rfl
  exact congrArg Value.date (moved_of_wholePart opposite (.inl rfl))

theorem dateAddDays_number (whole : wholePart? days = some n)
    : Operator.dateAddDays.apply (.date d) (.number days) = .date (d.addDays n) := by
  have word : daysOf (.number days) = Int64.ofIntClamp n := by
    rw [daysOf, word?, whole]
    rfl
  rw [dateAddDays_eq rfl, word, Instant.addDays_of_rounded (rounded_ofIntClamp n)]

theorem add_number_of_none (none : wholePart? days = none)
    : Operator.add.apply (.date d) (.number days) = .date d :=
  congrArg Value.date (moved_of_none none)

theorem dateAddDays_number_of_none (none : wholePart? days = none)
    : Operator.dateAddDays.apply (.date d) (.number days) = .date d := by
  have word : daysOf (.number days) = 0 := by
    rw [daysOf, word?, none]
    rfl
  rw [dateAddDays_eq rfl, word]
  rfl

end Operator

-----------------------------------------------------------------------------------------
-- Moving by a number
-----------------------------------------------------------------------------------------

/-- Outside of a leap second a number added to a date moves it as the operator for days does, and
subtracting the number again gives the date back, unless the integer part of the number leads out
of the supported years.
-/
theorem moving_by_number (d : Instant) (regular : d.isLeap = false) (days : Float)
    : Operator.add.apply (.date d) (.number days)
        = Operator.dateAddDays.apply (.date d) (.number days)
      ∧ (days.isFinite = true → ∃ n, IntegerPart days n)
      ∧ ∀ n e,
          IntegerPart days n
          → d.Later n e
          → Operator.add.apply (.date d) (.number days) = .date e
            ∧ Operator.subtract.apply (Operator.add.apply (.date d) (.number days))
                (.number days)
              = .date d := by
  refine ⟨?_, fun finite => ?_, fun n e part later => ?_⟩
  · cases whole : wholePart? days with
    | none =>
        rw [Operator.add_number_of_none whole, Operator.dateAddDays_number_of_none whole]
    | some n => rw [Operator.add_number whole, Operator.dateAddDays_number whole]
  · obtain ⟨n, whole⟩ := isFinite_iff.mp finite
    exact ⟨n, integerPart_iff.mpr whole⟩
  · have whole := integerPart_iff.mp part
    have there : Operator.add.apply (.date d) (.number days) = .date e := by
      rw [Operator.add_number whole, later.addDays_eq regular]
    have stillRegular : e.isLeap = false := later.isLeap_eq.trans regular
    refine ⟨there, ?_⟩
    rw [there, Operator.subtract_number whole, later.back.addDays_eq stillRegular]

/-- A day and a half back and the same forth again. -/
theorem moving_by_number_fraction
    : let d : Instant := ⟨1706659200, 0, by decide, by decide, by decide⟩
      let e : Instant := ⟨1706572800, 0, by decide, by decide, by decide⟩
      let days : Float := -1.5
      d.isLeap = false
      ∧ IntegerPart days (-1)
      ∧ d.Later (-1) e
      ∧ Operator.dateAddDays.apply (.date d) (.number days) = .date e
      ∧ Operator.subtract.apply (.date e) (.number days) = .date d := by
  intro d e days
  have regular : d.isLeap = false := rfl
  have part : IntegerPart days (-1) := integerPart_iff.mpr (by decide +kernel)
  have later : d.Later (-1) e := ⟨rfl, rfl⟩
  obtain ⟨agree, -, undone⟩ := moving_by_number d regular days
  obtain ⟨there, back⟩ := undone (-1) e part later
  rw [there] at agree back
  exact ⟨regular, part, later, agree.symm, back⟩

end RowFormula
