import RowFormula.Proofs.Outcome
import RowFormula.Rows.Access

/-! What a write does to a store: one place gets the value, the journal one record, and
nothing else changes. Records that are replayed on a store are written to it again.
-/

namespace RowFormula

/-- Where a value is stored: a property of a row. -/
structure Place where
  entity : String
  row : String
  property : String
  deriving DecidableEq

namespace RowStore

def valueAt (s : RowStore) (place : Place) : Except StoreError Value :=
  s.readProperty place.entity place.row place.property

/-- Two stores have the same rows and relations, and the same values except in some places.
-/
structure AgreeExcept (places : Place → Prop) (s t : RowStore) : Prop where
  row : ∀ entity row, s.row entity row = t.row entity row
  relations : s.relations = t.relations
  value : ∀ place, ¬places place → s.valueAt place = t.valueAt place

-----------------------------------------------------------------------------------------
-- Agreement of stores
-----------------------------------------------------------------------------------------

section

variable {places : Place → Prop} {s t : RowStore}

theorem AgreeExcept.refl (places : Place → Prop) (s : RowStore) : AgreeExcept places s s :=
  ⟨fun _ _ => rfl, rfl, fun _ _ => rfl⟩

theorem AgreeExcept.symm (agree : AgreeExcept places s t) : AgreeExcept places t s := by
  constructor
  · intro entity row
    exact (agree.row entity row).symm
  · exact agree.relations.symm
  · intro place untouched
    exact (agree.value place untouched).symm

theorem AgreeExcept.trans {u : RowStore} (first : AgreeExcept places s t)
    (second : AgreeExcept places t u)
    : AgreeExcept places s u := by
  constructor
  · intro entity row
    exact (first.row entity row).trans (second.row entity row)
  · exact first.relations.trans second.relations
  · intro place untouched
    exact (first.value place untouched).trans (second.value place untouched)

theorem AgreeExcept.mono {more : Place → Prop} (agree : AgreeExcept places s t)
    (wider : ∀ place, places place → more place)
    : AgreeExcept more s t := by
  refine ⟨agree.row, agree.relations, ?_⟩
  intro place untouched
  have outside : ¬places place := by
    intro touched
    exact untouched (wider place touched)
  exact agree.value place outside

/-- Related rows are found through the relations and the rows alone. -/
theorem AgreeExcept.relatedRows (agree : AgreeExcept places s t)
    (entity row relationship : String)
    : s.relatedRows entity row relationship = t.relatedRows entity row relationship := by
  have rows : (fun key : RowKey => s.row key.1 key.2) = fun key => t.row key.1 key.2 :=
    funext fun key => agree.row key.1 key.2
  simp only [RowStore.relatedRows, agree.relations]
  exact congrArg (fun read => List.mapM read _) rows

/-- A write fails on both stores for the same reason or on neither. -/
theorem AgreeExcept.write_outcome (agree : AgreeExcept places s t)
    (entity row property : String) (slots : ValueSlots)
    : (s.writeProperty entity row property slots).map (fun _ => ())
      = (t.writeProperty entity row property slots).map fun _ => () := by
  have same := agree.row entity row
  simp only [RowStore.row, stored] at same
  simp only [writeProperty, setValue, stored]
  cases left : s.rows.get? (entity, row) <;> cases right : t.rows.get? (entity, row) <;>
    simp [left, right, Except.map] at same ⊢

end

-----------------------------------------------------------------------------------------
-- One stored value
-----------------------------------------------------------------------------------------

/-- A value is stored exactly when the row exists, and then only the row's values change. -/
theorem setValue_eq_ok_iff {s t : RowStore} {entity row property : String} {v : Value}
    : s.setValue entity row property v = .ok t
      ↔ ∃ found,
          s.rows.get? (entity, row) = some found
          ∧ t
            = { s with
                rows :=
                  s.rows.insert (entity, row)
                    { found with values := found.values.insert property v } } := by
  simp only [setValue, stored]
  cases s.rows.get? (entity, row) with
  | none => simp [Except.map]
  | some found => simp [Except.map, eq_comm]

section

variable {s t : RowStore} {entity row property : String} {v : Value}
  (stored : s.setValue entity row property v = .ok t)

include stored

theorem writes_of_set : t.writes = s.writes := by
  obtain ⟨found, _, rfl⟩ := setValue_eq_ok_iff.mp stored
  rfl

theorem valueAt_of_set : t.valueAt ⟨entity, row, property⟩ = .ok v := by
  obtain ⟨found, _, rfl⟩ := setValue_eq_ok_iff.mp stored
  simp [valueAt, readProperty, RowStore.stored, Table.get?_insert, Except.map]

/-- Storing a value changes one place. -/
theorem agree_of_set : AgreeExcept (· = ⟨entity, row, property⟩) s t := by
  obtain ⟨found, present, rfl⟩ := setValue_eq_ok_iff.mp stored
  refine ⟨?_, rfl, ?_⟩
  · intro otherEntity otherRow
    by_cases same : (otherEntity, otherRow) = (entity, row)
    · obtain ⟨rfl, rfl⟩ := Prod.mk.inj same
      simp [RowStore.row, RowStore.stored, Table.get?_insert, present, Except.map, StoredRow.row]
    · simp [RowStore.row, RowStore.stored, Table.get?_insert, same]
  · rintro ⟨otherEntity, otherRow, otherProperty⟩ elsewhere
    by_cases same : (otherEntity, otherRow) = (entity, row)
    · obtain ⟨rfl, rfl⟩ := Prod.mk.inj same
      have other : otherProperty ≠ property := by
        intro equal
        exact elsewhere (by rw [equal])
      simp [valueAt, readProperty, RowStore.stored, Table.get?_insert, present, Except.map, other]
    · simp [valueAt, readProperty, RowStore.stored, Table.get?_insert, same]

end

-----------------------------------------------------------------------------------------
-- One write
-----------------------------------------------------------------------------------------

section

variable {s t : RowStore} {entity row property : String} {slots : ValueSlots}
  (written : s.writeProperty entity row property slots = .ok t)

include written

theorem writes_of_write : t.writes = s.writes ++ [⟨entity, row, property, slots⟩] := by
  obtain ⟨u, set, rfl⟩ := Except.map_eq_ok_iff.mp written
  rw [noteWrite, writes_of_set set]

theorem valueAt_of_write : t.valueAt ⟨entity, row, property⟩ = .ok slots.toValue := by
  obtain ⟨u, set, rfl⟩ := Except.map_eq_ok_iff.mp written
  have value : u.valueAt ⟨entity, row, property⟩ = .ok slots.toValue := valueAt_of_set set
  exact value

/-- A write changes one place. -/
theorem agree_of_write : AgreeExcept (· = ⟨entity, row, property⟩) s t := by
  obtain ⟨u, set, rfl⟩ := Except.map_eq_ok_iff.mp written
  have agree := agree_of_set set
  exact ⟨agree.row, agree.relations, agree.value⟩

end

-----------------------------------------------------------------------------------------
-- Records replayed in order
-----------------------------------------------------------------------------------------

/-- The store after the write that a record stands for. A write to a row that does not
exist leaves the store as it is.
-/
def apply (s : RowStore) (w : WriteRecord) : RowStore :=
  match s.writeProperty w.entity w.row w.property w.slots with
  | .ok t => t
  | .error _ => s

def replay (s : RowStore) (records : List WriteRecord) : RowStore :=
  records.foldl apply s

theorem replay_append (s : RowStore) (first second : List WriteRecord)
    : s.replay (first ++ second) = (s.replay first).replay second :=
  List.foldl_append

end RowStore

/-- A guarded call answers only if it does not fail. -/
theorem RowAccess.guarded_eq_ok_iff {α : Type} {a : RowAccess} {call : StoreCall}
    {answer : Except StoreError α} {result : α}
    : a.guarded call answer = .ok result ↔ a.outage call = none ∧ answer = .ok result := by
  cases failing : a.outage call <;> simp [guarded, failing]

end RowFormula
