import Mathlib.Data.List.DropRight
import RowFormula.Proofs.History.Changes
import RowFormula.Proofs.Rows.Keys
import RowFormula.Proofs.Rows.Writes

/-! A row store that starts empty tells what was done to it: which row was inserted last under a
key, which value was stored last since then, which writes succeeded and what was related to
what. Whatever can be asked of the store is answered from the history of the calls alone.
-/

namespace RowFormula

/-- A call that may change a row store. -/
inductive StoreChange where
  | insertRow (entity row : String) (order : Float)
  | setValue (entity row property : String) (v : Value)
  | writeProperty (entity row property : String) (slots : ValueSlots)
  | relate (entity row relationship : String) (target : RowKey)

/-- The row to which a place belongs. -/
def Place.rowKey (place : Place) : RowKey :=
  (place.entity, place.row)

/-- An answer about a row, which fails where the row is missing. -/
def answerAbout {α : Type} (key : RowKey) : Option α → Except StoreError α
  | some answer => .ok answer
  | none => .error (.rowNotFound key.1 key.2)

namespace StoreChange

/-- The row that a call inserts under a key. -/
def inserted? (key : RowKey) : StoreChange → Option Row
  | insertRow entity row order => if (entity, row) = key then some ⟨entity, row, order⟩ else none
  | _ => none

/-- The value that a call stores in a place. -/
def stored? (place : Place) : StoreChange → Option Value
  | setValue entity row property v => if ⟨entity, row, property⟩ = place then some v else none
  | writeProperty entity row property slots =>
    if ⟨entity, row, property⟩ = place then some slots.toValue else none
  | _ => none

def record? : StoreChange → Option WriteRecord
  | writeProperty entity row property slots => some ⟨entity, row, property, slots⟩
  | _ => none

/-- The row that a call relates to another through a relationship. -/
def target? (key : RowKey) (relationship : String) : StoreChange → Option RowKey
  | relate entity row id target =>
    if (key, relationship) = ((entity, row), id) then some target else none
  | _ => none

end StoreChange

namespace RowStore

/-- What a call makes of a store, or why it fails. -/
def change (s : RowStore) : StoreChange → Except StoreError RowStore
  | .insertRow entity row order => .ok (s.insertRow entity row order)
  | .setValue entity row property v => s.setValue entity row property v
  | .writeProperty entity row property slots => s.writeProperty entity row property slots
  | .relate entity row relationship target => .ok (s.relate entity row relationship target)

/-- The store that calls leave which are made one after another on an empty store. -/
def ofHistory (history : List StoreChange) : RowStore :=
  Changes.after change {} history

end RowStore

namespace StoreHistory

/-- The row that was inserted last under a key. -/
def lastInserted? (history : List StoreChange) (key : RowKey) : Option Row :=
  (history.filterMap (·.inserted? key)).getLast?

/-- The calls that succeeded, oldest first. -/
def successful (history : List StoreChange) : List StoreChange :=
  Changes.successes RowStore.change {} history

/-- The value that was stored last in a place since its row was last inserted. -/
def lastStored? (history : List StoreChange) (place : Place) : Option Value :=
  let since := (successful history).rtakeWhile fun c => (c.inserted? place.rowKey).isNone
  (since.filterMap (·.stored? place)).getLast?

/-- The rows that were related to a row through a relationship, in the order of the calls. -/
def targets (history : List StoreChange) (key : RowKey) (relationship : String) : List RowKey :=
  history.filterMap (·.target? key relationship)

/-- What a history says about the store that it leaves. -/
structure Describes (history : List StoreChange) (s : RowStore) : Prop where
  row
    : ∀ entity row,
        s.row entity row = answerAbout (entity, row) (lastInserted? history (entity, row))
  /-- A row has the values that were stored since it was last inserted. -/
  value
    : ∀ place,
        s.valueAt place
        = answerAbout place.rowKey
            ((lastInserted? history place.rowKey).map fun _ =>
              (lastStored? history place).getD .null)
  /-- Only calls that store a value can fail, which they do where the row was never inserted. -/
  failure
    : ∀ c cause,
        s.change c = .error cause
        ↔ ∃ place,
            (c.stored? place).isSome ∧ lastInserted? history place.rowKey = none
            ∧ cause = .rowNotFound place.entity place.row
  writes : s.writes = (successful history).filterMap (·.record?)
  /-- Related rows are found as they are now, unless one of them was never inserted. -/
  related
    : ∀ entity row relationship,
        s.relatedRows entity row relationship
        = match (targets history (entity, row) relationship).find? fun key =>
              (lastInserted? history key).isNone with
          | some key => .error (.rowNotFound key.1 key.2)
          | none =>
            .ok ((targets history (entity, row) relationship).filterMap (lastInserted? history))

end StoreHistory

open StoreHistory

namespace RowStore

-----------------------------------------------------------------------------------------
-- One call that fails
-----------------------------------------------------------------------------------------

/-- A value is stored unless its row is missing. -/
theorem setValue_eq_error_iff {s : RowStore} {entity row property : String} {v : Value}
    {cause : StoreError}
    : s.setValue entity row property v = .error cause ↔ s.row entity row = .error cause := by
  simp only [setValue, RowStore.row]
  cases s.stored entity row <;> simp [Except.map]

/-- A write fails where storing its value does. -/
theorem writeProperty_eq_error_iff {s : RowStore} {entity row property : String}
    {slots : ValueSlots} {cause : StoreError}
    : s.writeProperty entity row property slots = .error cause
      ↔ s.row entity row = .error cause := by
  have storing : s.setValue entity row property slots.toValue = .error cause
      ↔ s.row entity row = .error cause :=
    setValue_eq_error_iff
  rw [← storing, writeProperty]
  cases s.setValue entity row property slots.toValue <;> simp [Except.map]

/-- A call that stores a value fails where the row of the place is missing, and no other call
fails.
-/
theorem change_eq_error_iff {s : RowStore} {c : StoreChange} {cause : StoreError}
    : s.change c = .error cause
      ↔ ∃ place, (c.stored? place).isSome ∧ s.row place.entity place.row = .error cause := by
  cases c with
  | insertRow entity row order => simp [change, StoreChange.stored?]
  | relate entity row relationship target => simp [change, StoreChange.stored?]
  | setValue entity row property v =>
      simp [change, setValue_eq_error_iff, StoreChange.stored?]
  | writeProperty entity row property slots =>
      simp [change, writeProperty_eq_error_iff, StoreChange.stored?]

-----------------------------------------------------------------------------------------
-- One call that succeeds
-----------------------------------------------------------------------------------------

section

variable {s t : RowStore} {c : StoreChange} (made : s.change c = .ok t)

include made

/-- Only an inserted row is another one than before. -/
theorem row_of_change (key : RowKey)
    : t.row key.1 key.2
      = match c.inserted? key with
        | some inserted => .ok inserted
        | none => s.row key.1 key.2 := by
  cases c with
  | insertRow entity row order =>
      obtain rfl := Except.ok.inj made
      by_cases same : (entity, row) = key
      · subst same
        simp [StoreChange.inserted?, insertRow, RowStore.row, stored, Table.get?_insert, Except.map,
          StoredRow.row]
      · simp [StoreChange.inserted?, insertRow, RowStore.row, stored, Table.get?_insert, same,
          Ne.symm same]
  | setValue entity row property v => exact ((agree_of_set made).row key.1 key.2).symm
  | writeProperty entity row property slots =>
      exact ((agree_of_write made).row key.1 key.2).symm
  | relate entity row relationship target =>
      obtain rfl := Except.ok.inj made
      rfl

/-- An inserted row has no values, and a stored value stands in its place. -/
theorem valueAt_of_change (place : Place)
    : t.valueAt place
      = match c.inserted? place.rowKey, c.stored? place with
        | some _, _ => .ok .null
        | none, some v => .ok v
        | none, none => s.valueAt place := by
  cases c with
  | insertRow entity row order =>
      obtain rfl := Except.ok.inj made
      obtain ⟨placeEntity, placeRow, property⟩ := place
      by_cases same : (entity, row) = (placeEntity, placeRow)
      · obtain ⟨rfl, rfl⟩ := Prod.mk.inj same
        simp [StoreChange.inserted?, Place.rowKey, insertRow, valueAt, readProperty, stored,
          Table.get?_insert, Except.map]
      · simp [StoreChange.inserted?, StoreChange.stored?, Place.rowKey, insertRow, valueAt,
          readProperty, stored, Table.get?_insert, same, Ne.symm same]
  | setValue entity row property v =>
      by_cases same : ⟨entity, row, property⟩ = place
      · subst same
        simp only [StoreChange.inserted?, StoreChange.stored?, if_true, valueAt_of_set made]
      · simp only [StoreChange.inserted?, StoreChange.stored?, same, if_false]
        exact ((agree_of_set made).value place (Ne.symm same)).symm
  | writeProperty entity row property slots =>
      by_cases same : ⟨entity, row, property⟩ = place
      · subst same
        simp only [StoreChange.inserted?, StoreChange.stored?, if_true, valueAt_of_write made]
      · simp only [StoreChange.inserted?, StoreChange.stored?, same, if_false]
        exact ((agree_of_write made).value place (Ne.symm same)).symm
  | relate entity row relationship target =>
      obtain rfl := Except.ok.inj made
      rfl

/-- Only a relation that is added is followed in another way than before. -/
theorem related_of_change (key : RowKey) (relationship : String)
    : t.related key.1 key.2 relationship
      = s.related key.1 key.2 relationship ++ (c.target? key relationship).toList := by
  cases c with
  | insertRow entity row order =>
      obtain rfl := Except.ok.inj made
      exact (List.append_nil _).symm
  | setValue entity row property v =>
      rw [related, related, (agree_of_set made).relations]
      exact (List.append_nil _).symm
  | writeProperty entity row property slots =>
      rw [related, related, (agree_of_write made).relations]
      exact (List.append_nil _).symm
  | relate entity row id target =>
      obtain rfl := Except.ok.inj made
      rw [related_relate, StoreChange.target?]
      by_cases same : (key, relationship) = ((entity, row), id)
      · simp only [same, if_true, Option.toList_some]
      · simp only [same, if_false, Option.toList_none]

theorem writes_of_change : t.writes = s.writes ++ c.record?.toList := by
  cases c with
  | insertRow entity row order =>
      obtain rfl := Except.ok.inj made
      exact (List.append_nil _).symm
  | setValue entity row property v =>
      rw [writes_of_set made]
      exact (List.append_nil _).symm
  | writeProperty entity row property slots => exact writes_of_write made
  | relate entity row id target =>
      obtain rfl := Except.ok.inj made
      exact (List.append_nil _).symm

end

-----------------------------------------------------------------------------------------
-- One more call at the end of a history
-----------------------------------------------------------------------------------------

theorem ofHistory_of_ok {history : List StoreChange} {c : StoreChange} {t : RowStore}
    (made : (ofHistory history).change c = .ok t)
    : ofHistory (history ++ [c]) = t :=
  Changes.after_of_ok made

theorem ofHistory_of_error {history : List StoreChange} {c : StoreChange} {cause : StoreError}
    (failed : (ofHistory history).change c = .error cause)
    : ofHistory (history ++ [c]) = ofHistory history :=
  Changes.after_of_error failed

end RowStore

namespace StoreHistory

theorem lastInserted?_concat (history : List StoreChange) (c : StoreChange) (key : RowKey)
    : lastInserted? (history ++ [c]) key = (c.inserted? key).or (lastInserted? history key) := by
  rw [lastInserted?, List.filterMap_append, List.getLast?_append]
  cases made : c.inserted? key <;> simp [made, lastInserted?]

theorem targets_concat (history : List StoreChange) (c : StoreChange) (key : RowKey)
    (relationship : String)
    : targets (history ++ [c]) key relationship
      = targets history key relationship ++ (c.target? key relationship).toList := by
  rw [targets, List.filterMap_append]
  cases made : c.target? key relationship <;> simp [made, targets]

/-- An inserted row forgets what was stored, and a stored value is the last one. -/
theorem lastStored?_of_ok {history : List StoreChange} {c : StoreChange} {t : RowStore}
    (made : (RowStore.ofHistory history).change c = .ok t) (place : Place)
    : lastStored? (history ++ [c]) place
      = match c.inserted? place.rowKey, c.stored? place with
        | some _, _ => none
        | none, some v => some v
        | none, none => lastStored? history place := by
  simp only [lastStored?, successful, Changes.successes_of_ok made]
  cases inserted : c.inserted? place.rowKey with
  | some row => simp [inserted]
  | none =>
      cases stored : c.stored? place <;> simp [inserted, stored]

theorem lastStored?_of_error {history : List StoreChange} {c : StoreChange} {cause : StoreError}
    (failed : (RowStore.ofHistory history).change c = .error cause) (place : Place)
    : lastStored? (history ++ [c]) place = lastStored? history place := by
  simp only [lastStored?, successful, Changes.successes_of_error failed]

end StoreHistory

-----------------------------------------------------------------------------------------
-- Whole histories
-----------------------------------------------------------------------------------------

namespace RowStore

/-- A call that inserts or relates a row does not fail. -/
theorem neither_of_error {s : RowStore} {c : StoreChange} {cause : StoreError}
    (failed : s.change c = .error cause)
    : (∀ key, c.inserted? key = none) ∧ ∀ key relationship, c.target? key relationship = none := by
  cases c with
  | insertRow entity row order => cases failed
  | setValue entity row property v => exact ⟨fun _ => rfl, fun _ _ => rfl⟩
  | writeProperty entity row property slots => exact ⟨fun _ => rfl, fun _ _ => rfl⟩
  | relate entity row relationship target => cases failed

/-- Under a key stands the row that was inserted last, by induction on the calls. -/
theorem row_ofHistory (history : List StoreChange) (key : RowKey)
    : (ofHistory history).row key.1 key.2 = answerAbout key (lastInserted? history key) := by
  induction history using List.reverseRecOn with
  | nil => rfl
  | append_singleton history c ih =>
      rw [lastInserted?_concat]
      cases made : (ofHistory history).change c with
      | ok t =>
          rw [ofHistory_of_ok made, row_of_change made key, ih]
          cases c.inserted? key <;> rfl
      | error cause =>
          rw [ofHistory_of_error made, (neither_of_error made).1 key, Option.none_or, ih]

/-- A call fails exactly where it would store a value in a row that was never inserted. -/
theorem change_ofHistory_eq_error_iff {history : List StoreChange} {c : StoreChange}
    {cause : StoreError}
    : (ofHistory history).change c = .error cause
      ↔ ∃ place,
          (c.stored? place).isSome ∧ lastInserted? history place.rowKey = none
          ∧ cause = .rowNotFound place.entity place.row := by
  rw [change_eq_error_iff]
  refine exists_congr fun place => and_congr_right fun _ => ?_
  have found : (ofHistory history).row place.entity place.row
      = answerAbout place.rowKey (lastInserted? history place.rowKey) :=
    row_ofHistory history place.rowKey
  rw [found]
  cases lastInserted? history place.rowKey with
  | none => simp [answerAbout, Place.rowKey, eq_comm]
  | some row => simp [answerAbout]

/-- A row has the values that were stored since it was last inserted, by induction on the calls.
-/
theorem valueAt_ofHistory (history : List StoreChange) (place : Place)
    : (ofHistory history).valueAt place
      = answerAbout place.rowKey
          ((lastInserted? history place.rowKey).map fun _ =>
            (lastStored? history place).getD .null) := by
  induction history using List.reverseRecOn with
  | nil => rfl
  | append_singleton history c ih =>
      rw [lastInserted?_concat]
      cases made : (ofHistory history).change c with
      | ok t =>
          rw [ofHistory_of_ok made, valueAt_of_change made place, lastStored?_of_ok made place]
          cases inserted : c.inserted? place.rowKey with
          | some row => rfl
          | none =>
              cases stored : c.stored? place with
              | none => exact ih
              | some v =>
                  -- The call succeeded, so that the row must have been inserted before.
                  cases present : lastInserted? history place.rowKey with
                  | some row => rfl
                  | none =>
                      have failed := change_ofHistory_eq_error_iff.mpr
                        ⟨place, by rw [stored]; rfl, present, rfl⟩
                      rw [failed] at made
                      cases made
      | error cause =>
          rw [ofHistory_of_error made, (neither_of_error made).1, Option.none_or,
            lastStored?_of_error made, ih]

/-- Relations are kept in the order of the calls, by induction on them. -/
theorem related_ofHistory (history : List StoreChange) (key : RowKey) (relationship : String)
    : (ofHistory history).related key.1 key.2 relationship
      = targets history key relationship := by
  induction history using List.reverseRecOn with
  | nil => rfl
  | append_singleton history c ih =>
      rw [targets_concat]
      cases made : (ofHistory history).change c with
      | ok t => rw [ofHistory_of_ok made, related_of_change made, ih]
      | error cause =>
          rw [ofHistory_of_error made, (neither_of_error made).2, ih]
          exact (List.append_nil _).symm

/-- The journal holds the writes that succeeded, by induction on the calls. -/
theorem writes_ofHistory (history : List StoreChange)
    : (ofHistory history).writes = (successful history).filterMap (·.record?) := by
  induction history using List.reverseRecOn with
  | nil => rfl
  | append_singleton history c ih =>
      cases made : (ofHistory history).change c with
      | ok t =>
          rw [ofHistory_of_ok made, writes_of_change made, successful, Changes.successes_of_ok made,
            List.filterMap_append, ih]
          cases record : c.record? <;> simp [record, successful]
      | error cause =>
          rw [ofHistory_of_error made, successful, Changes.successes_of_error made, ih, successful]

theorem relatedRows_ofHistory (history : List StoreChange) (entity row relationship : String)
    : (ofHistory history).relatedRows entity row relationship
      = match (targets history (entity, row) relationship).find? fun key =>
            (lastInserted? history key).isNone with
        | some key => .error (.rowNotFound key.1 key.2)
        | none =>
          .ok ((targets history (entity, row) relationship).filterMap (lastInserted? history)) := by
  have found (key : RowKey) (inserted : Row) (present : lastInserted? history key = some inserted)
      : (ofHistory history).row key.1 key.2 = .ok inserted := by
    rw [row_ofHistory history key, present]
    rfl
  have missing (key : RowKey) (absent : lastInserted? history key = none)
      : (ofHistory history).row key.1 key.2 = .error (.rowNotFound key.1 key.2) := by
    rw [row_ofHistory history key, absent]
    rfl
  calc (ofHistory history).relatedRows entity row relationship
    _ = ((ofHistory history).related entity row relationship).mapM fun key =>
          (ofHistory history).row key.1 key.2 := rfl
    _ = _ := by
          rw [related_ofHistory history (entity, row), Except.mapM_lookup found missing]
          cases (targets history (entity, row) relationship).find? _ <;> rfl

theorem describes_ofHistory (history : List StoreChange)
    : Describes history (ofHistory history) where
  row entity row := row_ofHistory history (entity, row)
  value := valueAt_ofHistory history
  failure _ _ := change_ofHistory_eq_error_iff
  writes := writes_ofHistory history
  related := relatedRows_ofHistory history

end RowStore

/-- A row store equals its history. What it answers is told by the calls that were made, a call
that fails leaves no trace, and a row that is inserted again loses its values while the relations
and the journal stay.
-/
theorem store_after_history (history : List StoreChange)
    : Describes history (.ofHistory history)
      ∧ (∀ c cause,
          (RowStore.ofHistory history).change c = .error cause
          → RowStore.ofHistory (history ++ [c]) = .ofHistory history)
      ∧ ∀ entity row order,
          let again := RowStore.ofHistory (history ++ [.insertRow entity row order])
          (∀ property, again.readProperty entity row property = .ok .null)
          ∧ again.relations = (RowStore.ofHistory history).relations
          ∧ again.writes = (RowStore.ofHistory history).writes := by
  refine ⟨RowStore.describes_ofHistory history, ?_, ?_⟩
  · intro c cause failed
    exact RowStore.ofHistory_of_error failed
  · intro entity row order again
    have made : again = (RowStore.ofHistory history).insertRow entity row order :=
      RowStore.ofHistory_of_ok rfl
    refine ⟨?_, ?_, ?_⟩
    · intro property
      have cleared := RowStore.valueAt_of_change (c := .insertRow entity row order) rfl
        (s := .ofHistory history) ⟨entity, row, property⟩
      simpa [StoreChange.inserted?, Place.rowKey, RowStore.valueAt, ← made] using cleared
    · rw [made, RowStore.insertRow]
    · rw [made, RowStore.insertRow]

/-- The row that was inserted again is empty, but still related to a row that is missing: a value
stored there is refused.
-/
theorem store_after_history_reinserted
    : let history : List StoreChange :=
        [ .relate "item" "a" "next" ("item", "b"),
          .insertRow "item" "a" 1,
          .setValue "item" "a" "note" (.text "old"),
          .insertRow "item" "a" 2 ]
      let s := RowStore.ofHistory history
      s.readProperty "item" "a" "note" = .ok .null
      ∧ s.relatedRows "item" "a" "next" = .error (.rowNotFound "item" "b")
      ∧ RowStore.ofHistory (history ++ [.setValue "item" "b" "note" .null]) = s := by
  intro history s
  obtain ⟨described, failing, -⟩ := store_after_history history
  refine ⟨?_, ?_, ?_⟩
  · exact (described.value ⟨"item", "a", "note"⟩).trans rfl
  · exact (described.related "item" "a" "next").trans rfl
  · exact failing _ (.rowNotFound "item" "b") rfl

end RowFormula
