import Mathlib
import RowFormula.Proofs.Scenario.Loading
import RowFormula.Proofs.Variable.Frame

/-! Where the relations of a loaded scenario lead. A relation is checked against the first
relationship with its id, so the rows that are related through an id belong to the entity to which
that one leads. A later relationship with the same id finds the same rows, whatever entity it
leads to.
-/

namespace RowFormula

namespace Scenario

variable {s : Scenario} {entity row id : String} {related : List Row} {other : Row}

/-- Every row that is related through an id is a row of the entity to which the first relationship
with the id leads.
-/
theorem Valid.related_declared (valid : s.Valid)
    (found : s.loadedStore.relatedRows entity row id = .ok related) (member : other ∈ related)
    : ∃ first,
        s.relationship? entity id = some first
        ∧ other.entity = first.entity
        ∧ s.loadedStore.row first.entity other.id = .ok other := by
  rw [valid.describes.related, Except.mapM_eq_ok_iff] at found
  have answer : (.ok other : Except StoreError Row) ∈ related.map .ok :=
    List.mem_map_of_mem member
  rw [← found] at answer
  obtain ⟨key, target, read⟩ := List.mem_map.mp answer
  obtain ⟨r, listed, rfl⟩ := List.mem_map.mp target
  obtain ⟨inRelations, source⟩ := List.mem_filter.mp listed
  obtain ⟨sourceRow, rfl⟩ := Prod.mk.inj (eq_of_beq source)
  obtain ⟨rfl, rfl⟩ := Prod.mk.inj sourceRow
  obtain ⟨first, declared, leads⟩ := valid.relations r inRelations
  obtain ⟨rowEntity, rowId⟩ := Prod.mk.inj (RowStore.key_of_row read)
  refine ⟨first, declared, rowEntity.trans leads.symm, ?_⟩
  rw [leads, rowId]
  exact read

end Scenario

/-- Related rows are of the declared entity, unless an id is used again. The rows that are related
through the id of a declared relationship are rows of the entity to which the first relationship
with that id leads. So a path that follows a relationship to an entity finds rows of that entity
only, if no earlier relationship has the same id and leads elsewhere.
-/
theorem related_rows_declared (s : Scenario) (catalog : Catalog) (store : RowStore)
    (entity : String) (schema : EntitySchema) (rel : Relationship)
    (loaded : s.load = .ok (catalog, store)) (known : catalog.get? entity = some schema)
    (declared : rel ∈ schema.relationships)
    : ∃ first,
        schema.relationship? rel.id = some first
        ∧ (∀ row related,
            store.relatedRows entity row rel.id = .ok related
            → ∀ other ∈ related,
                other.entity = first.entity ∧ store.row first.entity other.id = .ok other)
        ∧ ∀ target,
            schema.relationshipTo? target = some rel
            → first.entity = rel.entity
            → ∀ row related,
                store.relatedRows entity row rel.id = .ok related
                → ∀ other ∈ related,
                    other.entity = target ∧ store.row target other.id = .ok other := by
  obtain ⟨valid, rfl, rfl⟩ := Scenario.load_eq_ok_iff.mp loaded
  obtain ⟨first, found⟩ : ∃ first, schema.relationship? rel.id = some first := by
    apply Option.isSome_iff_exists.mp
    exact List.find?_isSome.mpr ⟨rel, declared, beq_self_eq_true rel.id⟩
  have rows (row : String) (related : List Row)
      (read : s.loadedStore.relatedRows entity row rel.id = .ok related)
      : ∀ other ∈ related,
          other.entity = first.entity ∧ s.loadedStore.row first.entity other.id = .ok other := by
    intro other member
    obtain ⟨checked, same, leads⟩ := valid.related_declared read member
    rw [← s.catalog_relationship?, known] at same
    obtain rfl : checked = first := Option.some.inj (same.symm.trans found)
    exact leads
  refine ⟨first, found, rows, ?_⟩
  intro target follows alike row related read
  obtain rfl := EntitySchema.entity_of_relationshipTo? follows
  rw [← alike]
  exact rows row related read

/-- An invoice with a line and a note of the same id, related through different ids: the note is
found through the relationship to notes.
-/
theorem related_rows_declared_apart
    : let schema : EntitySchema :=
        { name := "invoice"
          relationships := [⟨"lines", "line", .child⟩, ⟨"notes", "note", .child⟩] }
      let scenario : Scenario :=
        { entities := [schema, { name := "line" }, { name := "note" }]
          rows := [
            { entity := "invoice", id := "i" }, { entity := "line", id := "a", order := 7 },
            { entity := "note", id := "a", order := 2 }]
          relations := [
            ⟨"invoice", "i", "lines", "line", "a"⟩, ⟨"invoice", "i", "notes", "note", "a"⟩] }
      ∃ catalog store,
        scenario.load = .ok (catalog, store)
        ∧ catalog.get? "invoice" = some schema
        ∧ schema.relationshipTo? "note" = some ⟨"notes", "note", .child⟩
        ∧ store.relatedRows "invoice" "i" "notes" = .ok [⟨"note", "a", 2⟩]
        ∧ store.row "note" "a" = .ok ⟨"note", "a", 2⟩ := by
  intro schema scenario
  have loaded : scenario.load = .ok (scenario.catalog, scenario.loadedStore) := rfl
  have follows : schema.relationshipTo? "note" = some ⟨"notes", "note", .child⟩ := rfl
  have read : scenario.loadedStore.relatedRows "invoice" "i" "notes"
      = .ok [⟨"note", "a", 2⟩] := rfl
  obtain ⟨first, found, -, leads⟩ := related_rows_declared scenario _ _ "invoice" schema
    ⟨"notes", "note", .child⟩ loaded rfl (by simp [schema])
  have itself : first = ⟨"notes", "note", .child⟩ := (Option.some.inj found).symm
  have note := leads "note" follows (by rw [itself]) "i" _ read _ List.mem_cons_self
  exact ⟨_, _, loaded, rfl, follows, read, note.2⟩

/-- An invoice whose relationships to lines and to notes have the same id: a line is found through
the relationship to notes, and a path to the notes takes the position of the line.
-/
theorem related_row_of_another_entity
    : let schema : EntitySchema :=
        { name := "invoice"
          relationships := [⟨"link", "line", .child⟩, ⟨"link", "note", .child⟩] }
      let scenario : Scenario :=
        { entities := [schema, { name := "line" }, { name := "note" }]
          rows := [
            { entity := "invoice", id := "i" }, { entity := "line", id := "a", order := 7 }]
          relations := [⟨"invoice", "i", "link", "line", "a"⟩] }
      ∃ catalog store,
        scenario.load = .ok (catalog, store)
        ∧ catalog.get? "invoice" = some schema
        ∧ schema.relationshipTo? "note" = some ⟨"link", "note", .child⟩
        ∧ store.relatedRows "invoice" "i" "link" = .ok [⟨"line", "a", 7⟩]
        ∧ let r : VariableResolver := { catalog, rows := { store }, resultAs := .number }
          (r.resolve "row.note.order" (.ofRow "invoice" "i")).outcome
          = .ok (some (.number 7)) := by
  intro schema scenario
  refine ⟨scenario.catalog, scenario.loadedStore, rfl, rfl, rfl, rfl, ?_⟩
  have segments : (pathSegments "row.note.order".toList).map String.ofList
      = "row" :: "note" :: "order" :: (none : Option String).toList := by decide
  intro r
  rw [VariableResolver.resolve_of_row segments (by decide) (Table.get?_insert ..)]
  cbv

end RowFormula
