import RowFormula.Entity.Schema
import RowFormula.Formula.Json

/-! Schemas of entities as JSON. -/

namespace RowFormula

def PropertyKind.ofJson? : Json → Option PropertyKind :=
  Json.choice? false PropertyKind.ofName?

def PropertySchema.ofJson? (json : Json) : Option PropertySchema := do
  let r ← Json.record? ["name", "type", "default", "formula"] json
  return {
    name := ← r.required "name" Json.toText?
    kind := ← r.defaulted "type" PropertyKind.ofJson? .text
    default := ← r.defaulted "default" Value.ofJson? .null
    formula := ← r.optional "formula" Formula.ofJson? }

/-- The tree of a property; a formula is written only where there is one. -/
def PropertySchema.toJson (p : PropertySchema) : Json :=
  Json.objectOfSome [
    ("name", some (.text p.name)),
    ("type", some (.text p.kind.name)),
    ("default", some p.default.toJson),
    ("formula", p.formula.map Formula.toJson)]

def Relationship.ofJson? (json : Json) : Option Relationship := do
  let r ← Json.record? ["id", "entity", "kind"] json
  return {
    id := ← r.required "id" Json.toText?
    entity := ← r.required "entity" Json.toText?
    kind := ← r.required "kind" (Json.choice? false RelationshipKind.ofName?) }

def Relationship.toJson (r : Relationship) : Json :=
  .object [("id", .text r.id), ("entity", .text r.entity), ("kind", .text r.kind.name)]

def EntitySchema.ofJson? (json : Json) : Option EntitySchema := do
  let r ← Json.record? ["name", "properties", "relationships"] json
  return {
    name := ← r.required "name" Json.toText?
    properties := ← r.defaulted "properties" (Json.items? PropertySchema.ofJson?) []
    relationships := ← r.defaulted "relationships" (Json.items? Relationship.ofJson?) [] }

def EntitySchema.toJson (e : EntitySchema) : Json :=
  .object [
    ("name", .text e.name),
    ("properties", .array (e.properties.map PropertySchema.toJson)),
    ("relationships", .array (e.relationships.map Relationship.toJson))]

end RowFormula
