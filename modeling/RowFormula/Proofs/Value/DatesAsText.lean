import RowFormula.Proofs.Calendar.ReadingBack
import RowFormula.Proofs.Operator.MovedDates
import RowFormula.Value.Json

/-! Dates that pass through text. The text that is stored keeps the whole date, and the text that
is shown keeps it to the millisecond.
-/

namespace RowFormula

open Calendar

section

variable {d : Instant}

theorem toJson_date (d : Instant) : (Value.date d).toJson = .text d.exactText := by
  rw [Value.toJson]

theorem toDate?_exactText (digits : d.HasFourDigits)
    : (Value.text d.exactText).toDate? = some d := by
  rw [Value.toDate?]
  exact Instant.instant?_exactText digits

theorem toText_append_null (d : Instant)
    : Operator.concat.apply (.date d) .null = .text (Value.date d).toText :=
  congrArg Value.text (String.append_empty)

theorem null_append_toText (d : Instant)
    : Operator.concat.apply .null (.date d) = .text (Value.date d).toText :=
  congrArg Value.text (String.empty_append)

theorem toDate?_toText (digits : d.HasFourDigits)
    : (Value.text (Value.date d).toText).toDate? = some d.wholeMillis := by
  rw [Value.toText, Value.toDate?]
  exact Instant.instant?_text digits

/-- A shown date is moved as the date itself, to the millisecond. -/
theorem dateAddDays_toText (digits : d.HasFourDigits) {e : Instant} {days : Value}
    (moved : Operator.dateAddDays.apply (.date d) days = .date e)
    : Operator.dateAddDays.apply (.text (Value.date d).toText) days = .date e.wholeMillis := by
  rw [Operator.dateAddDays_eq rfl] at moved
  obtain rfl := Value.date.inj moved
  rw [Operator.dateAddDays_eq (toDate?_toText digits), Instant.addDays_wholeMillis]

end

/-- From year 0 to year 9999 a stored date is read back from its text exactly, leap seconds
included, and a shown date without its part below one millisecond. The same part is all that is
lost by casting a date to a string and back, and by moving a date that was joined with null.
-/
theorem dates_survive_as_text (d : Instant) (digits : d.HasFourDigits)
    : (∃ t, (Value.date d).toJson = .text t ∧ (Value.text t).toDate? = some d)
      ∧ (Value.text (Value.date d).toText).toDate? = some d.wholeMillis
      ∧ ResultType.date.cast (ResultType.string.cast (.date d)) = .date d.wholeMillis
      ∧ ∀ days, ∃ e,
          Operator.dateAddDays.apply (.date d) days = .date e
          ∧ Operator.dateAddDays.apply (Operator.concat.apply (.date d) .null) days
            = .date e.wholeMillis
          ∧ Operator.dateAddDays.apply (Operator.concat.apply .null (.date d)) days
            = .date e.wholeMillis := by
  refine ⟨⟨d.exactText, toJson_date d, toDate?_exactText digits⟩, toDate?_toText digits, ?_,
    fun days => ?_⟩
  · calc ResultType.date.cast (ResultType.string.cast (.date d))
      _ = ((Value.text (Value.date d).toText).toDate?.map Value.date).getD .null := rfl
      _ = .date d.wholeMillis := by rw [toDate?_toText digits]; rfl
  · have moved : Operator.dateAddDays.apply (.date d) days = _ := Operator.dateAddDays_eq rfl
    rw [toText_append_null, null_append_toText]
    exact ⟨_, moved, dateAddDays_toText digits moved, dateAddDays_toText digits moved⟩

/-- The last nanosecond of a leap second. -/
theorem dates_survive_as_text_leap
    : let d : Instant := ⟨1483228799, 1999999999, by decide, by decide, by decide⟩
      let e : Instant := ⟨1483228799, 1999000000, by decide, by decide, by decide⟩
      d.HasFourDigits
      ∧ (Value.date d).toJson = .text "2016-12-31T23:59:60.999999999Z"
      ∧ (Value.text "2016-12-31T23:59:60.999999999Z").toDate? = some d
      ∧ (Value.text (Value.date d).toText).toDate? = some e
      ∧ ResultType.date.cast (ResultType.string.cast (.date d)) = .date e := by
  intro d e
  have digits : d.HasFourDigits := by decide +kernel
  have stored : (Value.date d).toJson = .text "2016-12-31T23:59:60.999999999Z" := by
    rw [toJson_date]
    exact congrArg Json.text (by decide +kernel)
  obtain ⟨⟨t, json, read⟩, shown, cast, -⟩ := dates_survive_as_text d digits
  obtain rfl := Json.text.inj (json.symm.trans stored)
  have cut : d.wholeMillis = e := Instant.eq_of_parts rfl (by decide)
  rw [cut] at shown cast
  exact ⟨digits, stored, read, shown, cast⟩

end RowFormula
