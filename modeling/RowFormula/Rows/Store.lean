import RowFormula.Entity.Schema
import RowFormula.Table

/-! Rows with their values and relations, and a journal of writes. -/

namespace RowFormula

/-- Why a schema or a row could not be read or written. -/
inductive StoreError where
  | entityNotFound (entity : String)
  | rowNotFound (entity row : String)
  /-- The store itself failed, for a reason of its own. -/
  | backend (reason : String)
  deriving Repr, DecidableEq

def StoreError.message : StoreError → String
  | entityNotFound entity => "Entity '" ++ entity ++ "' not found"
  | rowNotFound entity row => "Row '" ++ row ++ "' not found in entity '" ++ entity ++ "'"
  | backend reason => "Store backend failure: " ++ reason

/-- Schemas under their own names. Of those with the same name the one added last counts. -/
structure Catalog where
  /-- The schemas, the last added first. -/
  schemas : List EntitySchema := []

namespace Catalog

def insert (c : Catalog) (schema : EntitySchema) : Catalog :=
  ⟨schema :: c.schemas⟩

def get? (c : Catalog) (name : String) : Option EntitySchema :=
  c.schemas.find? (·.name == name)

def entity (c : Catalog) (name : String) : Except StoreError EntitySchema :=
  match c.get? name with
  | some schema => .ok schema
  | none => .error (.entityNotFound name)

def ofSchemas (schemas : List EntitySchema) : Catalog :=
  schemas.foldl insert {}

theorem get?_insert (c : Catalog) (schema : EntitySchema) (name : String)
    : (c.insert schema).get? name = if schema.name = name then some schema else c.get? name := by
  simp only [get?, insert, List.find?_cons]
  by_cases same : schema.name = name
  · simp [same]
  · simp [same, beq_false_of_ne same]

/-- Among the schemas of a catalog the last one with a name is found. -/
theorem get?_ofSchemas (schemas : List EntitySchema) (name : String)
    : (ofSchemas schemas).get? name = (schemas.filter (·.name == name)).getLast? := by
  have collected (c : Catalog) : schemas.foldl insert c = ⟨schemas.reverse ++ c.schemas⟩ := by
    induction schemas generalizing c with
    | nil => rfl
    | cons schema rest ih =>
        rw [List.foldl_cons, ih, List.reverse_cons, List.append_assoc]
        rfl
  rw [ofSchemas, collected, get?, List.append_nil, ← List.head?_filter, List.filter_reverse,
    List.head?_reverse]

/-- A schema is found under its own name. -/
theorem name_of_get? {c : Catalog} {name : String} {schema : EntitySchema}
    (found : c.get? name = some schema)
    : schema.name = name := by
  simpa using List.find?_some found

theorem entity_eq_ok_iff {c : Catalog} {name : String} {schema : EntitySchema}
    : c.entity name = .ok schema ↔ c.get? name = some schema := by
  cases known : c.get? name <;> simp [entity, known]

theorem name_of_entity {c : Catalog} {name : String} {schema : EntitySchema}
    (found : c.entity name = .ok schema)
    : schema.name = name :=
  name_of_get? (entity_eq_ok_iff.mp found)

end Catalog

/-- A row and its position in its entity. -/
structure Row where
  entity : String
  id : String
  order : Float

/-- What names a row: its entity and its id. -/
abbrev RowKey := String × String

/-- What is stored of a row under its key: its position and the values of its properties. -/
structure StoredRow where
  order : Float
  values : Table String Value := .empty

/-- A stored row together with the key under which it stands. -/
def StoredRow.row (found : StoredRow) (key : RowKey) : Row :=
  ⟨key.1, key.2, found.order⟩

/-- A write to a property. -/
structure WriteRecord where
  entity : String
  row : String
  property : String
  slots : ValueSlots

/-- Rows, the relations between them, and every write so far. -/
structure RowStore where
  rows : Table RowKey StoredRow := .empty
  /-- The rows related to a row through a relationship, in the order in which they were
  related.
  -/
  relations : Table (RowKey × String) (List RowKey) := .empty
  /-- The writes, oldest first. -/
  writes : List WriteRecord := []

namespace RowStore

def stored (s : RowStore) (entity row : String) : Except StoreError StoredRow :=
  match s.rows.get? (entity, row) with
  | some found => .ok found
  | none => .error (.rowNotFound entity row)

/-- Adds a row without values. A row of the same key is replaced, while its relations
stay.
-/
def insertRow (s : RowStore) (entity row : String) (order : Float) : RowStore :=
  { s with rows := s.rows.insert (entity, row) { order } }

/-- Stores a value without a record in the journal. -/
def setValue (s : RowStore) (entity row property : String) (v : Value)
    : Except StoreError RowStore :=
  (s.stored entity row).map fun found =>
    let updated := { found with values := found.values.insert property v }
    { s with rows := s.rows.insert (entity, row) updated }

def relate (s : RowStore) (entity row relationship : String) (target : RowKey) : RowStore :=
  -- Neither row has to exist yet; a missing one is noticed when the relation is followed.
  let key := ((entity, row), relationship)
  { s with relations := s.relations.insert key ((s.relations.get? key).getD [] ++ [target]) }

def row (s : RowStore) (entity row : String) : Except StoreError Row :=
  (s.stored entity row).map (·.row (entity, row))

/-- The value of a row's property, null when it has none. -/
def readProperty (s : RowStore) (entity row property : String) : Except StoreError Value :=
  (s.stored entity row).map fun found => (found.values.get? property).getD .null

/-- Adds a write to the journal. -/
def noteWrite (s : RowStore) (w : WriteRecord) : RowStore :=
  { s with writes := s.writes ++ [w] }

def writeProperty (s : RowStore) (entity row property : String) (slots : ValueSlots)
    : Except StoreError RowStore :=
  (s.setValue entity row property slots.toValue).map (·.noteWrite ⟨entity, row, property, slots⟩)

/-- The rows related to a row through a relationship, as they are now. -/
def relatedRows (s : RowStore) (entity row relationship : String)
    : Except StoreError (List Row) :=
  ((s.relations.get? ((entity, row), relationship)).getD []).mapM fun (entity, row) =>
    s.row entity row

end RowStore

end RowFormula
