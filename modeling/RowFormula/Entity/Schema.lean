import RowFormula.Formula.Basic

/-! Schemas of entities: their properties, formulas and relationships. -/

namespace RowFormula

/-- The declared type of a property. -/
inductive PropertyKind where
  | text
  | number
  | boolean
  | date
  | multiSelect
  | range
  | formula
  deriving Repr, DecidableEq

namespace PropertyKind

def name : PropertyKind → String
  | text => "text"
  | number => "number"
  | boolean => "boolean"
  | date => "date"
  | multiSelect => "multiSelect"
  | range => "range"
  | formula => "formula"

def ofName? : String → Option PropertyKind
  | "text" => some text
  | "number" => some number
  | "boolean" => some boolean
  | "date" => some date
  | "multiSelect" => some multiSelect
  | "range" => some range
  | "formula" => some formula
  | _ => none

/-- The name by which a property type is shown in error messages. -/
def title : PropertyKind → String
  | text => "Text"
  | number => "Number"
  | boolean => "Boolean"
  | date => "Date"
  | multiSelect => "MultiSelect"
  | range => "Range"
  | formula => "Formula"

/-- Reads a value as the property type: a text that holds a date becomes the date where a
date is wanted, and every other value is kept.
-/
def coerce : PropertyKind → Value → Value
  | date, .text s => ((Value.toDate? (.text s)).map Value.date).getD (.text s)
  | _, v => v

/-- Whether a value fits the property type. Null fits every type, and a formula's property
fits every value.
-/
def accepts : PropertyKind → Value → Bool
  | _, .null => true
  | formula, _ => true
  | text, .text _ => true
  | number, .number _ => true
  | boolean, .bool _ => true
  | date, .date _ => true
  | multiSelect, .list _ => true
  | range, .range .. => true
  | _, _ => false

end PropertyKind

/-- A property of an entity. -/
structure PropertySchema where
  name : String
  kind : PropertyKind := .text
  default : Value := .null
  /-- The formula that computes the property's values, if there is one. -/
  formula : Option Formula := none

/-- The direction of a relationship, seen from the entity that declares it. -/
inductive RelationshipKind where
  | parent
  | child
  deriving Repr, DecidableEq

namespace RelationshipKind

def name : RelationshipKind → String
  | parent => "parent"
  | child => "child"

def ofName? : String → Option RelationshipKind
  | "parent" => some parent
  | "child" => some child
  | _ => none

end RelationshipKind

/-- A relationship that leads to another entity. -/
structure Relationship where
  id : String
  /-- The name of the entity it leads to. -/
  entity : String
  kind : RelationshipKind
  deriving Repr, DecidableEq

/-- The schema of an entity. -/
structure EntitySchema where
  name : String
  properties : List PropertySchema := []
  relationships : List Relationship := []

namespace EntitySchema

/-- The first property with a name. -/
def property? (e : EntitySchema) (name : String) : Option PropertySchema :=
  e.properties.find? (·.name == name)

/-- The first relationship with an id. -/
def relationship? (e : EntitySchema) (id : String) : Option Relationship :=
  e.relationships.find? (·.id == id)

/-- The relationship followed to reach an entity: the first that leads to a parent, or
else the first of all.
-/
def relationshipTo? (e : EntitySchema) (entity : String) : Option Relationship :=
  let candidates := e.relationships.filter (·.entity == entity)
  (candidates.find? (·.kind == .parent)).or candidates.head?

/-- The properties that are computed, each with its formula. -/
def formulaProperties (e : EntitySchema) : List (PropertySchema × Formula) :=
  e.properties.filterMap fun p => p.formula.map (p, ·)

end EntitySchema

end RowFormula
