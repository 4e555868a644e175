import RowFormula.Decimal.Binary
import RowFormula.Rows.Store

/-! Scenarios: schemas, rows and relations that describe an entity graph as a whole. -/

namespace RowFormula

/-- A row of a scenario with its values. -/
structure ScenarioRow where
  entity : String
  id : String
  order : Float := 0
  values : Table String Value := .empty

/-- A relation of a scenario. -/
structure ScenarioRelation where
  entity : String
  row : String
  relationship : String
  targetEntity : String
  targetRow : String
  deriving Repr, DecidableEq

/-- An entity graph. -/
structure Scenario where
  entities : List EntitySchema := []
  rows : List ScenarioRow := []
  relations : List ScenarioRelation := []

/-- Why a scenario is not valid. -/
inductive ScenarioError where
  /-- A row belongs to an entity that is not declared. -/
  | unknownEntity (row entity : String)
  /-- A row has a value for a property that its entity does not declare. -/
  | undeclaredProperty (row entity property : String)
  /-- A value does not fit its property's type. -/
  | misfit (value : Value) (entity property : String) (kind : PropertyKind)
  /-- A relation uses a relationship that its entity does not declare. -/
  | undeclaredRelationship (relationship entity : String)
  /-- A relation leads to another entity than its relationship. -/
  | wrongTarget (relationship declared given : String)

def ScenarioError.message : ScenarioError → String
  | unknownEntity row entity =>
    "Invalid scenario: row '" ++ row ++ "' uses unknown entity '" ++ entity ++ "'"
  | undeclaredProperty row entity property =>
    "Invalid scenario: row '" ++ row ++ "' sets undeclared property '" ++ entity ++ "."
      ++ property ++ "'"
  | misfit v entity property kind =>
    "Invalid scenario: " ++ v.kindName ++ " value " ++ v.toText ++ " does not fit property '"
      ++ entity ++ "." ++ property ++ "' of type " ++ kind.title
  | undeclaredRelationship relationship entity =>
    "Invalid scenario: relationship '" ++ relationship ++ "' is not declared on entity '"
      ++ entity ++ "'"
  | wrongTarget relationship declared given =>
    "Invalid scenario: relationship '" ++ relationship ++ "' leads to '" ++ declared
      ++ "', not '" ++ given ++ "'"

/-- The property with its default read as the property's type. -/
def PropertySchema.withCoercedDefault (p : PropertySchema) : PropertySchema :=
  { p with default := p.kind.coerce p.default }

/-- The schema with every default read as its property's type. -/
def EntitySchema.withCoercedDefaults (e : EntitySchema) : EntitySchema :=
  { e with properties := e.properties.map PropertySchema.withCoercedDefault }

namespace Scenario

/-- The ids of an entity's rows, by position; rows in the same position keep their order.
-/
def rowIds (s : Scenario) (entity : String) : List String :=
  let rows := s.rows.filter (·.entity == entity)
  (rows.mergeSort fun a b => Decimal.totalKey a.order ≤ Decimal.totalKey b.order).map (·.id)

def catalog (s : Scenario) : Catalog :=
  .ofSchemas (s.entities.map EntitySchema.withCoercedDefaults)

/-- Reads a value as the type of the property it is given for. -/
def checkValue (schema : EntitySchema) (row : ScenarioRow) (property : String) (v : Value)
    : Except ScenarioError Value :=
  match schema.property? property with
  | none => .error (.undeclaredProperty row.id row.entity property)
  | some declared =>
    let coerced := declared.kind.coerce v
    if declared.kind.accepts coerced then .ok coerced
    else .error (.misfit coerced row.entity property declared.kind)

/-- Reads the values of a row one by one. -/
def checkValues (schema : EntitySchema) (row : ScenarioRow)
    : List (String × Value) → Except ScenarioError (List (String × Value))
  | [] => .ok []
  | (property, v) :: rest => do
    let v ← checkValue schema row property v
    let others ← checkValues schema row rest
    return (property, v) :: others

/-- Adds a row to a store; it replaces an earlier row of the same key. -/
def loadRow (catalog : Catalog) (store : RowStore) (row : ScenarioRow)
    : Except ScenarioError RowStore :=
  match catalog.get? row.entity with
  | none => .error (.unknownEntity row.id row.entity)
  | some schema => do
    let values ← checkValues schema row row.values.entries
    let stored : StoredRow := { order := row.order, values := .ofList values }
    return { store with rows := store.rows.insert (row.entity, row.id) stored }

/-- Adds a relation to a store. The rows at its ends need not exist. -/
def loadRelation (catalog : Catalog) (store : RowStore) (r : ScenarioRelation)
    : Except ScenarioError RowStore :=
  match (catalog.get? r.entity).bind (·.relationship? r.relationship) with
  | none => .error (.undeclaredRelationship r.relationship r.entity)
  | some declared =>
    if declared.entity = r.targetEntity then
      .ok (store.relate r.entity r.row r.relationship (r.targetEntity, r.targetRow))
    else .error (.wrongTarget r.relationship declared.entity r.targetEntity)

/-- The catalog and the rows of a scenario, or the first fault in it: rows are checked
before relations, each in the order given.
-/
def load (s : Scenario) : Except ScenarioError (Catalog × RowStore) := do
  let store ← s.rows.foldlM (loadRow s.catalog) {}
  let store ← s.relations.foldlM (loadRelation s.catalog) store
  return (s.catalog, store)

end Scenario

end RowFormula
