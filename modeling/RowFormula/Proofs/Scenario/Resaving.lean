import RowFormula.Proofs.Formula.Resaving
import RowFormula.Scenario.Json

/-! Scenarios are read again from the trees that they are written as.

A tree may leave out fields that have a default, name fields that nothing reads, or list a
record's fields without their names. None of this is written again, but the scenario that is
read from the written tree is the same one.
-/

namespace RowFormula

open Json

theorem PropertyKind.resaves : Resaves ofJson? (fun kind => .text kind.name) :=
  resaves_choice fun kind => by cases kind <;> rfl

/-- A property's formula is written only where there is one, so that a property without one is
read again by leaving the field out.
-/
theorem PropertySchema.resaves : Resaves ofJson? toJson := by
  intro json p given
  simp only [ofJson?, Option.bind_eq_bind, Option.bind_eq_some_iff] at given
  obtain ⟨r, -, name, -, kind, kindRead, default, defaultRead, formula, formulaRead, same⟩ :=
    given
  obtain rfl := Option.some.inj same
  have kindAgain := PropertyKind.resaves.defaulted rfl kindRead
  have defaultAgain := Value.resaves.defaulted rfl defaultRead
  cases formula with
  | none =>
      calc ofJson? (toJson ⟨name, kind, default, none⟩)
        _ = (do
              let kind ← PropertyKind.ofJson? (.text kind.name)
              let default ← Value.ofJson? default.toJson
              return ⟨name, kind, default, none⟩) := rfl
        _ = some ⟨name, kind, default, none⟩ := by
              rw [kindAgain, defaultAgain]
              rfl
  | some formula =>
      have formulaAgain := Formula.resaves.optional formulaRead
      calc ofJson? (toJson ⟨name, kind, default, some formula⟩)
        _ = (do
              let kind ← PropertyKind.ofJson? (.text kind.name)
              let default ← Value.ofJson? default.toJson
              let formula ← (Formula.ofJson? formula.toJson).map some
              return ⟨name, kind, default, formula⟩) := rfl
        _ = some ⟨name, kind, default, some formula⟩ := by
              rw [kindAgain, defaultAgain, formulaAgain]
              rfl

theorem Relationship.resaves : Resaves ofJson? toJson := by
  intro json r _
  obtain ⟨id, entity, kind⟩ := r
  cases kind <;> rfl

theorem EntitySchema.resaves : Resaves ofJson? toJson := by
  intro json e given
  simp only [ofJson?, Option.bind_eq_bind, Option.bind_eq_some_iff] at given
  obtain ⟨r, -, name, -, properties, propertiesRead, relationships, relationshipsRead, same⟩ :=
    given
  obtain rfl := Option.some.inj same
  calc ofJson? (toJson ⟨name, properties, relationships⟩)
    _ = (do
          let properties ← items? PropertySchema.ofJson?
            (.array (properties.map PropertySchema.toJson))
          let relationships ← items? Relationship.ofJson?
            (.array (relationships.map Relationship.toJson))
          return ⟨name, properties, relationships⟩) := rfl
    _ = some ⟨name, properties, relationships⟩ := by
          rw [PropertySchema.resaves.items.defaulted rfl propertiesRead,
            Relationship.resaves.items.defaulted rfl relationshipsRead]
          rfl

theorem ScenarioRow.resaves : Resaves ofJson? toJson := by
  intro json row given
  simp only [ofJson?, Option.bind_eq_bind, Option.bind_eq_some_iff] at given
  obtain ⟨r, -, entity, -, id, -, order, orderRead, values, valuesRead, same⟩ := given
  obtain rfl := Option.some.inj same
  have zero : toFloat? (ofFloat 0) = some 0 := toFloat?_ofFloat (by decide)
  calc ofJson? (toJson ⟨entity, id, order, values⟩)
    _ = (do
          let order ← toFloat? (ofFloat order)
          let values ← Table.ofJson? Value.ofJson? (values.toJson Value.toJson)
          return ⟨entity, id, order, values⟩) := rfl
    _ = some ⟨entity, id, order, values⟩ := by
          rw [resaves_float.defaulted zero orderRead,
            Value.resaves.table.defaulted rfl valuesRead]
          rfl

theorem ScenarioRelation.resaves : Resaves ofJson? toJson :=
  fun _ _ _ => rfl

theorem Scenario.resaves : Resaves ofJson? toJson := by
  intro json s given
  simp only [ofJson?, Option.bind_eq_bind, Option.bind_eq_some_iff] at given
  obtain ⟨r, -, entities, entitiesRead, rows, rowsRead, relations, relationsRead, same⟩ := given
  obtain rfl := Option.some.inj same
  calc ofJson? (toJson ⟨entities, rows, relations⟩)
    _ = (do
          let entities ← items? EntitySchema.ofJson? (.array (entities.map EntitySchema.toJson))
          let rows ← items? ScenarioRow.ofJson? (.array (rows.map ScenarioRow.toJson))
          let relations ← items? ScenarioRelation.ofJson?
            (.array (relations.map ScenarioRelation.toJson))
          return ⟨entities, rows, relations⟩) := rfl
    _ = some ⟨entities, rows, relations⟩ := by
          rw [EntitySchema.resaves.items.required entitiesRead,
            ScenarioRow.resaves.items.defaulted rfl rowsRead,
            ScenarioRelation.resaves.items.defaulted rfl relationsRead]
          rfl

/-- Saving loses nothing that was read. Whichever tree a scenario was read from, the tree it is
written as is read as the same scenario, and so it is for a formula on its own.
-/
theorem saved_and_read_again (json : Json)
    : (∀ s, Scenario.ofJson? json = some s → Scenario.ofJson? s.toJson = some s)
      ∧ ∀ f, Formula.ofJson? json = some f → Formula.ofJson? f.toJson = some f :=
  ⟨Scenario.resaves json, Formula.resaves json⟩

/-- A formula's tree with a field that nothing reads and fields left to their defaults. Its first
component lists its fields without their names and has a value nested in another.
-/
def looseFormula : Json :=
  .object [
    ("owner", .unreadable),
    ("components", .array [
      .array [.text "value", .integer 0, .array [
        .object [("to", .real 2.5), ("from", .integer 1)], .null]],
      .object [("value", .object [("ADD", .null)]), ("order", .integer 1),
        ("type", .text "operator")],
      .object [("type", .text "variable"), ("order", .integer 2),
        ("value", .text "row.task.size")]]),
    ("id", .text "total")]

/-- A scenario's tree whose only entity lists its fields without their names. -/
def looseScenario : Json :=
  .object [
    ("rows", .array [.object [
      ("id", .text "t"), ("entity", .text "task"), ("values", .object [("size", .integer 3)])]]),
    ("entities", .array [.array [.text "task", .array [
      .object [("name", .text "size"), ("type", .object [("number", .null)])],
      .array [.text "total", .text "formula", .null, looseFormula]]]])]

theorem saved_and_read_again_loosely_written
    : ∃ s f, Scenario.ofJson? looseScenario = some s ∧ Formula.ofJson? looseFormula = some f
      ∧ Scenario.ofJson? s.toJson = some s ∧ Formula.ofJson? f.toJson = some f :=
  ⟨_, _, rfl, rfl, (saved_and_read_again looseScenario).1 _ rfl,
    (saved_and_read_again looseFormula).2 _ rfl⟩

end RowFormula
