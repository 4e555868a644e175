import RowFormula.Proofs.Json.Resaving
import RowFormula.Value.Json

/-! Values are read again from the trees that they are written as.

Dates are not among them: a text is read as that text even when it holds a date, so no tree
is read as a value with a date in it.
-/

namespace RowFormula

open Json

namespace Value

mutual

theorem isReadable_toJson : (v : Value) → v.toJson.isReadable = true
  | .null | .bool _ | .text _ | .date _ => rfl
  | .number x => by
      unfold toJson ofFloat
      split <;> rfl
  | .list items => allReadable_itemsToJson items
  | .range lower upper => by
      simp only [toJson, isReadable, allFieldsReadable, isReadable_toJson lower,
        isReadable_toJson upper, Bool.and_self]

theorem allReadable_itemsToJson : (items : List Value) → allReadable (itemsToJson items) = true
  | [] => rfl
  | item :: rest => by
      simp only [itemsToJson, allReadable, isReadable_toJson item, allReadable_itemsToJson rest,
        Bool.and_self]

end

mutual

/-- A readable tree's value is read again, by cases of the tree. -/
theorem ofReadable?_toJson
    : (json : Json) → (v : Value) → ofReadable? json = some v → ofReadable? v.toJson = some v
  | .null, _, given | .bool _, _, given | .text _, _, given => by
      obtain rfl := Option.some.inj given
      rfl
  | .integer _, _, given | .real _, _, given => by
      obtain ⟨x, found, rfl⟩ := Option.map_eq_some_iff.mp given
      have finite := isFinite_of_toFloat? found
      simp only [toJson, ofFloat, finite, if_true, ofReadable?, toFloat?, Option.map_some]
  | .array items, _, given => by
      obtain ⟨values, found, rfl⟩ := Option.map_eq_some_iff.mp given
      simp only [toJson, ofReadable?, itemsOf?_itemsToJson items values found, Option.map_some]
  | .object fields, v, given => by
      unfold ofReadable? at given
      split at given
      case h_1 lower upper found =>
        obtain rfl := Option.some.inj given
        obtain ⟨readLower, readUpper⟩ := ends?_toJson fields _ _ found
        simp only [toJson, ofReadable?, ends?, readLower lower rfl, readUpper upper rfl,
          Option.map_some]
      case h_2 => cases given

theorem itemsOf?_itemsToJson
    : (items : List Json) → (values : List Value) → itemsOf? items = some values →
      itemsOf? (itemsToJson values) = some values
  | [], _, given => by
      obtain rfl := Option.some.inj given
      rfl
  | item :: rest, _, given => by
      unfold itemsOf? at given
      split at given
      case h_1 value others first later =>
        obtain rfl := Option.some.inj given
        simp only [itemsToJson, itemsOf?, ofReadable?_toJson item value first,
          itemsOf?_itemsToJson rest others later]
      case h_2 => cases given

/-- The ends of a range are read again, whichever of them were found. -/
theorem ends?_toJson
    : (fields : List (String × Json)) → (lower upper : Option Value) →
      ends? fields = some (lower, upper) →
      (∀ v ∈ lower, ofReadable? v.toJson = some v) ∧ ∀ v ∈ upper, ofReadable? v.toJson = some v
  | [], _, _, given => by
      cases given
      constructor <;> intro v absent <;> cases absent
  | (name, json) :: rest, lower, upper, given => by
      unfold ends? at given
      split at given
      case h_1 later =>
        obtain ⟨value, found, same⟩ := Option.map_eq_some_iff.mp given
        cases same
        refine ⟨?_, (ends?_toJson rest _ _ later).2⟩
        intro v present
        obtain rfl := Option.some.inj present
        exact ofReadable?_toJson json value found
      case h_2 => cases given
      case h_3 later =>
        obtain ⟨value, found, same⟩ := Option.map_eq_some_iff.mp given
        cases same
        refine ⟨(ends?_toJson rest _ _ later).1, ?_⟩
        intro v present
        obtain rfl := Option.some.inj present
        exact ofReadable?_toJson json value found
      case h_4 => cases given
      case h_5 => exact ends?_toJson rest lower upper given

end

theorem resaves : Resaves ofJson? toJson := by
  intro json v given
  obtain ⟨-, readable⟩ := Option.ite_none_right_eq_some.mp given
  rw [ofJson?, if_pos (isReadable_toJson v)]
  exact ofReadable?_toJson json v readable

end Value

end RowFormula
