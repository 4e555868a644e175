import RowFormula.Value.Slots

/-! Casting to a result type and storing in its slot lose nothing of each other. -/

namespace RowFormula

/-- Slots are empty exactly when their value is null. -/
theorem ValueSlots.isEmpty_iff {slots : ValueSlots} : slots.isEmpty ↔ slots.toValue = .null := by
  obtain ⟨text, number, date, boolean⟩ := slots
  cases number <;> cases text <;> cases date <;> cases boolean <;>
    simp [ValueSlots.isEmpty, ValueSlots.toValue]

/-- The number of slots that are filled. -/
def ValueSlots.filled (slots : ValueSlots) : Nat :=
  [slots.text.isSome, slots.number.isSome, slots.date.isSome, slots.boolean.isSome].count true

namespace ResultType

/-- The values of a result type, each with the slots in which it is stored. -/
inductive Stores : ResultType → Value → ValueSlots → Prop where
  | null (t : ResultType) : Stores t .null {}
  | number (x : Float) : Stores number (.number x) { number := some x }
  | boolean (b : Bool) : Stores boolean (.bool b) { boolean := some b }
  | string (s : String) : Stores string (.text s) { text := some s }
  | date (d : Calendar.Instant) : Stores date (.date d) { date := some d }

/-- A cast value has the result type, and the value before the cast fills the same slots. -/
theorem stores (t : ResultType) (v : Value) : Stores t (t.cast v) (t.toSlots v) := by
  cases t with
  | number =>
      cases v with
      | null => exact .null _
      | _ => exact .number _
  | boolean =>
      cases v with
      | null => exact .null _
      | _ => exact .boolean _
  | string =>
      cases v with
      | null => exact .null _
      | _ => exact .string _
  | date =>
      cases v with
      | date d => exact .date d
      | text s =>
          -- A text that is no date is cast to null and fills no slot.
          simp only [cast, toSlots]
          cases (Value.text s).toDate? with
          | none => exact .null _
          | some d => exact .date d
      | _ => exact .null _

section

variable {t : ResultType} {v : Value} {slots : ValueSlots} (stored : Stores t v slots)

include stored

/-- What is stored is read back. -/
theorem Stores.toValue_eq : slots.toValue = v := by
  cases stored <;> rfl

/-- A value of the result type is not changed by a cast. -/
theorem Stores.cast_eq : t.cast v = v := by
  cases stored with
  | null t => cases t <;> rfl
  | number | boolean | string | date => rfl

theorem Stores.toSlots_eq : t.toSlots v = slots := by
  cases stored with
  | null t => cases t <;> rfl
  | number | boolean | string | date => rfl

theorem Stores.filled_le_one : slots.filled ≤ 1 := by
  cases stored <;> simp [ValueSlots.filled]

theorem Stores.filled_eq_zero_iff : slots.filled = 0 ↔ v = .null := by
  cases stored <;> simp [ValueSlots.filled]

end

/-- A cast value that is stored in its slot is read back unchanged. -/
theorem toValue_toSlots_cast (t : ResultType) (v : Value)
    : (t.toSlots (t.cast v)).toValue = t.cast v := by
  rw [(t.stores v).toSlots_eq, (t.stores v).toValue_eq]

end ResultType

end RowFormula
