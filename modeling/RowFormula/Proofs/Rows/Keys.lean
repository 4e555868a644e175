import RowFormula.Proofs.Outcome
import RowFormula.Rows.Store

/-! Rows are found under their keys. So the ids of the rows that were read tell which stores are the
same for the reader.
-/

namespace RowFormula

/-- What names a row in its store. -/
def Row.key (row : Row) : RowKey :=
  (row.entity, row.id)

namespace RowStore

/-- The keys of the rows related to a row through a relationship, in the order in which they
were related.
-/
def related (s : RowStore) (entity row relationship : String) : List RowKey :=
  (s.relations.get? ((entity, row), relationship)).getD []

/-- Two stores agree on the rows with some ids: a row is in both or in neither, at the same
position and with the same values. Their relations are the same.
-/
structure AgreeOn (ids : List String) (s t : RowStore) : Prop where
  relations : ∀ key, s.relations.get? key = t.relations.get? key
  position
    : ∀ entity, ∀ id ∈ ids,
        (s.row entity id).map (·.order) = (t.row entity id).map (·.order)
  value
    : ∀ entity, ∀ id ∈ ids, ∀ property,
        s.readProperty entity id property = t.readProperty entity id property

theorem stored_eq_ok_iff {s : RowStore} {entity row : String} {found : StoredRow}
    : s.stored entity row = .ok found ↔ s.rows.get? (entity, row) = some found := by
  cases known : s.rows.get? (entity, row) <;> simp [stored, known]

theorem row_of_get? {s : RowStore} {key : RowKey} {found : StoredRow}
    (present : s.rows.get? key = some found)
    : s.row key.1 key.2 = .ok (found.row key) := by
  rw [RowStore.row, stored_eq_ok_iff.mpr present]
  rfl

/-- A row that is found has the key that was asked for. -/
theorem key_of_row {s : RowStore} {entity id : String} {row : Row}
    (found : s.row entity id = .ok row)
    : row.key = (entity, id) := by
  obtain ⟨stored, -, rfl⟩ := Except.map_eq_ok_iff.mp found
  rfl

-----------------------------------------------------------------------------------------
-- Stores that agree on the rows that were read
-----------------------------------------------------------------------------------------

/-- Rows with other ids may differ in everything. -/
theorem agreeOn_of_get? {ids : List String} {s t : RowStore}
    (relations : s.relations = t.relations)
    (same : ∀ key : RowKey, key.2 ∈ ids → s.rows.get? key = t.rows.get? key)
    : s.AgreeOn ids t where
  relations key := by rw [relations]
  position entity id listed := by simp only [row, stored, same (entity, id) listed]
  value entity id listed property := by
    simp only [readProperty, stored, same (entity, id) listed]

/-- A row that was not read may be added, or moved and emptied. -/
theorem agreeOn_insertRow {ids : List String} (s : RowStore) (entity : String) {id : String}
    (order : Float) (unread : id ∉ ids)
    : s.AgreeOn ids (s.insertRow entity id order) := by
  refine agreeOn_of_get? rfl fun key listed => ?_
  have other : key ≠ (entity, id) := by
    rintro rfl
    exact unread listed
  simp [insertRow, Table.get?_insert, other]

section

variable {ids : List String} {s t : RowStore} (agree : s.AgreeOn ids t)

include agree

/-- A row with one of the ids that is found in one store is found in the other. -/
theorem AgreeOn.row_eq_ok {entity id : String} {row : Row} (listed : id ∈ ids)
    (found : s.row entity id = .ok row)
    : t.row entity id = .ok row := by
  have position := agree.position entity id listed
  obtain ⟨stored, present, rfl⟩ := Except.map_eq_ok_iff.mp found
  rw [found] at position
  cases other : t.stored entity id with
  | error cause => simp [RowStore.row, other, Except.map] at position
  | ok same =>
      have order : stored.order = same.order := by
        simpa [RowStore.row, other, Except.map, StoredRow.row] using position
      simp [RowStore.row, other, Except.map, StoredRow.row, order]

/-- Related rows that have such ids are the same in both stores. -/
theorem AgreeOn.relatedRows_eq_ok {entity id relationship : String} {rows : List Row}
    (found : s.relatedRows entity id relationship = .ok rows)
    (listed : ∀ row ∈ rows, row.id ∈ ids)
    : t.relatedRows entity id relationship = .ok rows := by
  simp only [RowStore.relatedRows, Except.mapM_eq_ok_iff] at found ⊢
  rw [← agree.relations, ← found]
  refine List.map_congr_left fun key member => ?_
  obtain ⟨row, inRows, read⟩ : ∃ row ∈ rows, s.row key.1 key.2 = .ok row := by
    have image : s.row key.1 key.2 ∈ rows.map Except.ok := found ▸ List.mem_map_of_mem member
    obtain ⟨row, inRows, same⟩ := List.mem_map.mp image
    exact ⟨row, inRows, same.symm⟩
  have recorded : key.2 ∈ ids := by
    have same : row.id = key.2 := congrArg Prod.snd (key_of_row read)
    exact same ▸ listed row inRows
  rw [read]
  exact agree.row_eq_ok recorded read

end

-----------------------------------------------------------------------------------------
-- Rows in the order in which they were related
-----------------------------------------------------------------------------------------

/-- A row that is related to another stands behind those that were related before, and no other
relation changes.
-/
theorem related_relate (s : RowStore) (entity row relationship : String) (target : RowKey)
    (source : RowKey) (id : String)
    : (s.relate entity row relationship target).related source.1 source.2 id
      = s.related source.1 source.2 id
        ++ if (source, id) = ((entity, row), relationship) then [target] else [] := by
  by_cases same : (source, id) = ((entity, row), relationship)
  · obtain ⟨rfl, rfl⟩ := Prod.mk.inj same
    simp [relate, related, Table.get?_insert]
  · simp [relate, related, Table.get?_insert, same]

/-- Related rows that all exist are found in the order in which they were related, by induction on
their keys.
-/
theorem relatedRows_eq_ok {s : RowStore} {entity row relationship : String}
    (exist : ∀ key ∈ s.related entity row relationship, (s.rows.get? key).isSome)
    : ∃ rows,
        s.relatedRows entity row relationship = .ok rows
        ∧ (s.related entity row relationship).map (fun key =>
            (s.rows.get? key).map (·.row key)) = rows.map some := by
  simp only [RowStore.relatedRows, Except.mapM_eq_ok_iff]
  change ∃ rows, (s.related entity row relationship).map _ = _ ∧ _
  generalize s.related entity row relationship = keys at exist
  induction keys with
  | nil => exact ⟨[], rfl, rfl⟩
  | cons key rest ih =>
      obtain ⟨rows, read, same⟩ := ih fun later member =>
        exist later (List.mem_cons_of_mem key member)
      obtain ⟨found, present⟩ := Option.isSome_iff_exists.mp (exist key List.mem_cons_self)
      refine ⟨found.row key :: rows, ?_, ?_⟩
      · simp only [List.map_cons, read, row_of_get? present]
      · simp only [List.map_cons, same, present, Option.map_some]

end RowStore

end RowFormula
