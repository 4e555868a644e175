import RowFormula.Entity.Json
import RowFormula.Json.Table
import RowFormula.Scenario.Basic

/-! Scenarios as JSON. -/

namespace RowFormula

open Json

def ScenarioRow.ofJson? (json : Json) : Option ScenarioRow := do
  let r ← record? ["entity", "id", "order", "values"] json
  return {
    entity := ← r.required "entity" toText?
    id := ← r.required "id" toText?
    order := ← r.defaulted "order" toFloat? 0
    values := ← r.defaulted "values" (Table.ofJson? Value.ofJson?) .empty }

def ScenarioRow.toJson (r : ScenarioRow) : Json :=
  .object [
    ("entity", .text r.entity),
    ("id", .text r.id),
    ("order", ofFloat r.order),
    ("values", r.values.toJson Value.toJson)]

def ScenarioRelation.ofJson? (json : Json) : Option ScenarioRelation := do
  let r ← record? ["entity", "row", "relationship", "targetEntity", "targetRow"] json
  return {
    entity := ← r.required "entity" toText?
    row := ← r.required "row" toText?
    relationship := ← r.required "relationship" toText?
    targetEntity := ← r.required "targetEntity" toText?
    targetRow := ← r.required "targetRow" toText? }

def ScenarioRelation.toJson (r : ScenarioRelation) : Json :=
  .object [
    ("entity", .text r.entity),
    ("row", .text r.row),
    ("relationship", .text r.relationship),
    ("targetEntity", .text r.targetEntity),
    ("targetRow", .text r.targetRow)]

def Scenario.ofJson? (json : Json) : Option Scenario := do
  let r ← record? ["entities", "rows", "relations"] json
  return {
    entities := ← r.required "entities" (items? EntitySchema.ofJson?)
    rows := ← r.defaulted "rows" (items? ScenarioRow.ofJson?) []
    relations := ← r.defaulted "relations" (items? ScenarioRelation.ofJson?) [] }

def Scenario.toJson (s : Scenario) : Json :=
  .object [
    ("entities", .array (s.entities.map EntitySchema.toJson)),
    ("rows", .array (s.rows.map ScenarioRow.toJson)),
    ("relations", .array (s.relations.map ScenarioRelation.toJson))]

end RowFormula
