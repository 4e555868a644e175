import RowFormula.Proofs.Trigger.Run
import RowFormula.Proofs.Trigger.Status

/-! A computed property that no other formula of its entity reads may get any formula: the other
properties are not affected. The two runs may write different values to that property and
number their log entries differently, but the stores agree everywhere else all along.
-/

namespace RowFormula

/-- A property with another formula, if it is a computed one of a given name. -/
def PropertySchema.refitted (p : PropertySchema) (property : String) (f : Formula)
    : PropertySchema :=
  if p.name = property then { p with formula := p.formula.map fun _ => f } else p

/-- The schema in which the computed properties of a name have another formula. -/
def EntitySchema.refitted (e : EntitySchema) (property : String) (f : Formula) : EntitySchema :=
  { e with properties := e.properties.map (·.refitted property f) }

/-- Two outcomes for the same property of the same row, which differ only if it is a given
property.
-/
structure PairOutcome.AgreeExcept (excepted : String) (left right : PairOutcome) : Prop where
  property : left.property = right.property
  row : left.row = right.row
  status : left.property ≠ excepted → left.status = right.status

namespace Engine

/-- The engine in which the computed properties of a name of an entity have another formula. -/
def refitted (e : Engine) (schema : EntitySchema) (property : String) (f : Formula) : Engine :=
  { e with catalog := e.catalog.insert (schema.refitted property f) }

def Pair.refitted (p : Pair) (property : String) (f : Formula) : Pair :=
  { property := p.property.refitted property f
    formula := if p.property.name = property then f else p.formula
    row := p.row }

/-- The places in which the rows of an entity keep a property. -/
def PlaceOf (entity property : String) (place : Place) : Prop :=
  place.entity = entity ∧ place.property = property

end Engine

-----------------------------------------------------------------------------------------
-- The schema of the entity
-----------------------------------------------------------------------------------------

section

variable {property : String} {f : Formula}

theorem PropertySchema.name_refitted (p : PropertySchema)
    : (p.refitted property f).name = p.name := by
  unfold refitted
  split <;> rfl

/-- A schema has the same properties when they have other formulas. -/
theorem EntitySchema.isNone_property?_refitted (e : EntitySchema) (name : String)
    : ((e.refitted property f).property? name).isNone = (e.property? name).isNone := by
  have names : ((·.name == name) ∘ fun p : PropertySchema => p.refitted property f)
      = (·.name == name) := by
    funext p
    simp only [Function.comp_apply, PropertySchema.name_refitted]
  simp only [property?, refitted, List.find?_map, names, Option.isNone_map]

theorem EntitySchema.name_refitted (e : EntitySchema)
    : (e.refitted property f).name = e.name := rfl

theorem EntitySchema.relationshipTo?_refitted (e : EntitySchema) (target : String)
    : (e.refitted property f).relationshipTo? target = e.relationshipTo? target := rfl

/-- Every computed property stays one, and those of the name have the other formula. -/
theorem EntitySchema.formulaProperties_refitted (e : EntitySchema)
    : (e.refitted property f).formulaProperties
      = e.formulaProperties.map fun (p, g) =>
          (p.refitted property f, if p.name = property then f else g) := by
  simp only [formulaProperties, refitted, List.filterMap_map, List.map_filterMap]
  refine List.filterMap_congr fun p _ => ?_
  by_cases named : p.name = property <;> cases computed : p.formula <;>
    simp [PropertySchema.refitted, named, computed]

theorem Engine.pairs_refitted (schema : EntitySchema) (rows : List String)
    : pairs (schema.refitted property f) rows
      = (pairs schema rows).map (·.refitted property f) := by
  simp only [pairs, EntitySchema.formulaProperties_refitted, List.flatMap_map, List.map_flatMap,
    List.map_map, Function.comp_def, Pair.refitted]

theorem Engine.Pair.refitted_of_ne {p : Pair} (other : p.property.name ≠ property)
    : p.refitted property f = p := by
  simp only [refitted, PropertySchema.refitted, other, if_false]

end

-----------------------------------------------------------------------------------------
-- Variables
-----------------------------------------------------------------------------------------

namespace Engine

variable {e : Engine} {schema : EntitySchema} {property : String} {f : Formula}

section

variable {g : Formula} {rows : RowStore}

theorem ownValue_refitted (row : Row) (name : String) (function : Option String)
    : ((e.refitted schema property f).resolver g rows).ownValue
          (schema.refitted property f) row name function
      = (e.resolver g rows).ownValue schema row name function := by
  have raw : ((e.refitted schema property f).resolver g rows).rawValue
        (schema.refitted property f) row name
      = (e.resolver g rows).rawValue schema row name := by
    simp only [VariableResolver.rawValue, EntitySchema.isNone_property?_refitted]
    rfl
  simp only [VariableResolver.ownValue, raw]

theorem relatedValue_refitted (path : String) (target : EntitySchema) (name : String)
    (function : Option String) (related : List Row)
    : ((e.refitted schema property f).resolver g rows).relatedValue path target name function
        related
      = (e.resolver g rows).relatedValue path target name function related := rfl

theorem entity_refitted : (e.refitted schema property f).catalog.entity schema.name
    = .ok (schema.refitted property f) := by
  simp [Catalog.entity, refitted, Catalog.get?_insert, EntitySchema.name_refitted]

theorem entity_refitted_of_ne {name : String} (other : name ≠ schema.name)
    : (e.refitted schema property f).catalog.entity name = e.catalog.entity name := by
  simp [Catalog.entity, refitted, Catalog.get?_insert, EntitySchema.name_refitted, other.symm]

variable (known : e.catalog.entity schema.name = .ok schema)

include known

/-- A path from a row of the entity asks its schema only which properties and relationships
there are, and every other entity still has the same schema.
-/
theorem resolveOnRow_refitted (path item target name : String) (function : Option String)
    : ((e.refitted schema property f).resolver g rows).resolveOnRow path schema.name item target
        name function
      = (e.resolver g rows).resolveOnRow path schema.name item target name function := by
  have found : ((e.refitted schema property f).resolver g rows).catalog.entity schema.name
      = .ok (schema.refitted property f) := entity_refitted
  have original : (e.resolver g rows).catalog.entity schema.name = .ok schema := known
  simp only [VariableResolver.resolveOnRow]
  rw [Reading.ofStore_bind_of_ok found, Reading.ofStore_bind_of_ok original]
  refine Reading.bind_congr fun row _ => Reading.bind_congr fun _ _ => ?_
  by_cases own : target = schema.name
  · subst own
    simp only [EntitySchema.name_refitted, if_true]
    exact ownValue_refitted row name function
  · simp only [EntitySchema.name_refitted, EntitySchema.relationshipTo?_refitted, own, if_false]
    cases followed : schema.relationshipTo? target with
    | none => rfl
    | some relationship =>
        have other : relationship.entity ≠ schema.name :=
          EntitySchema.entity_of_relationshipTo? followed ▸ own
        have same : ((e.refitted schema property f).resolver g rows).catalog.entity
              relationship.entity
            = (e.resolver g rows).catalog.entity relationship.entity :=
          entity_refitted_of_ne other
        simp only [same, relatedValue_refitted]
        rfl

/-- A path from a row of the entity is resolved alike. -/
theorem resolve_refitted (path item : String)
    : ((e.refitted schema property f).resolver g rows).resolve path (.ofRow schema.name item)
      = (e.resolver g rows).resolve path (.ofRow schema.name item) := by
  simp only [VariableResolver.resolve_eq, VariableBindings.get?_ofRow]
  generalize (pathSegments path.toList).map String.ofList = segments
  by_cases bound : segments.head?.getD "" = "row"
  · simp only [bound, if_true, resolveOnRow_refitted known]
  · simp only [bound, if_false]

/-- The variables of a formula of the entity have the same values. -/
theorem resolved_refitted (request : CalculationRequest) (item : String)
    (onRow : request.bindings = .ofRow schema.name item)
    : (e.refitted schema property f).resolved request rows = e.resolved request rows := by
  simp only [resolved, VariableResolver.resolveAll_eq, onRow, resolve_refitted known]

theorem statusOf_refitted (event : LifecycleEvent) (p : Pair)
    : (e.refitted schema property f).statusOf event schema.name p rows
      = e.statusOf event schema.name p rows := by
  have value (triggeredBy : CalculationTrigger)
      : (e.refitted schema property f).computedValue event schema.name p triggeredBy rows
        = e.computedValue event schema.name p triggeredBy rows := by
    simp only [computedValue]
    rw [resolved_refitted known (pairRequest event schema.name p triggeredBy) p.row rfl]
  simp only [statusOf, value]
  rfl

end

-----------------------------------------------------------------------------------------
-- Trigger runs
-----------------------------------------------------------------------------------------

section

variable {event : LifecycleEvent} {s t after other : EngineState}

/-- Steps for one pair with the same status keep stores in agreement. -/
theorem PairStep.agree_of_same {e' : Engine} {entity : String} {places : Place → Prop}
    {p : Pair} {status : PairStatus} (left : e.PairStep event entity p s status after)
    (right : e'.PairStep event entity p t status other)
    (agree : s.rows.AgreeExcept places t.rows)
    : after.rows.AgreeExcept places other.rows := by
  refine ⟨?_, ?_, ?_⟩
  · intro entity row
    rw [← left.agree.row, ← right.agree.row, agree.row]
  · rw [← left.agree.relations, ← right.agree.relations, agree.relations]
  · intro place untouched
    by_cases own : place = p.place entity
    · subst own
      rw [left.valueAt, right.valueAt, agree.value _ untouched]
    · rw [← left.agree.value _ own, ← right.agree.value _ own, agree.value _ untouched]

variable (known : e.catalog.entity schema.name = .ok schema)

include known

/-- A step for a pair of another property has the same status after the change, and a step for
the property itself changes no other value.
-/
theorem PairStep.refitted {p : Pair} {status otherStatus : PairStatus}
    (unread : p.property.name ≠ property → ¬p.formula.ReadsOwn schema.name property)
    (left : e.PairStep event schema.name p s status after)
    (right
      : (e.refitted schema property f).PairStep event schema.name (p.refitted property f) t
          otherStatus other)
    (agree : s.rows.AgreeExcept (PlaceOf schema.name property) t.rows)
    : (p.property.name ≠ property → status = otherStatus)
      ∧ after.rows.AgreeExcept (PlaceOf schema.name property) other.rows := by
  by_cases same : p.property.name = property
  · refine ⟨absurd same, ?_⟩
    have inside (place : Place) (own : place = p.place schema.name)
        : PlaceOf schema.name property place := by
      rw [own]
      exact ⟨rfl, same⟩
    have otherInside (place : Place)
        (own : place = (p.refitted property f).place schema.name)
        : PlaceOf schema.name property place := by
      rw [own]
      exact ⟨rfl, p.property.name_refitted.trans same⟩
    exact (left.agree.mono inside).symm.trans (agree.trans (right.agree.mono otherInside))
  · rw [Pair.refitted_of_ne same] at right
    have own : ¬PlaceOf schema.name property (p.place schema.name) := fun touched =>
      same touched.2
    have found : e.statusOf event schema.name p s.rows = e.statusOf event schema.name p t.rows :=
      statusOf_frame agree own (fun _ touched => touched.1) fun _ touched =>
        touched.2 ▸ unread same
    have status : status = otherStatus := by
      rw [left.status_eq, right.status_eq, statusOf_refitted known, found]
    subst status
    exact ⟨fun _ => rfl, left.agree_of_same right agree⟩

/-- A run after the change has the same outcomes for the other properties and leaves the same
values in all other places, by induction on the run before it.
-/
theorem PairRun.refitted {ps : List Pair} {outcomes others : List PairOutcome}
    (unread : ∀ p ∈ ps,
      p.property.name ≠ property → ¬p.formula.ReadsOwn schema.name property)
    (left : e.PairRun event schema.name ps s outcomes after)
    (right
      : (e.refitted schema property f).PairRun event schema.name
          (ps.map (·.refitted property f)) t others other)
    (agree : s.rows.AgreeExcept (PlaceOf schema.name property) t.rows)
    : List.Forall₂ (PairOutcome.AgreeExcept property) outcomes others
      ∧ after.rows.AgreeExcept (PlaceOf schema.name property) other.rows := by
  induction left generalizing t others with
  | nil s =>
      cases right
      exact ⟨.nil, agree⟩
  | @cons p rest s status middle outcomes after step _ ih =>
      cases right with
      | cons otherStep run =>
          obtain ⟨alike, kept⟩ :=
            step.refitted known (unread p List.mem_cons_self) otherStep agree
          obtain ⟨outcomes, stored⟩ :=
            ih (fun q member => unread q (List.mem_cons_of_mem p member)) run kept
          have first : PairOutcome.AgreeExcept property
              ⟨p.property.name, p.row, status⟩
              ⟨(p.refitted property f).property.name, (p.refitted property f).row, _⟩ :=
            ⟨p.property.name_refitted.symm, rfl, alike⟩
          exact ⟨.cons first outcomes, stored⟩

end

end Engine

open Engine in
/-- One broken formula never affects its siblings. If no formula of an entity, but perhaps those
of a computed property itself, reads that property from the row, then any other formula may
take its place: the trigger run reports the same for every row and every other property, and
leaves the same values but for those of the property, whatever calls to the row store fail.
-/
theorem siblings_unaffected (e : Engine) (event : LifecycleEvent) (entity : String)
    (schema : EntitySchema) (property : String) (f : Formula) (rows : List String)
    (s : EngineState)
    (known : e.catalog.get? entity = some schema)
    (unread : ∀ other ∈ schema.formulaProperties,
      other.1.name ≠ property → ¬other.2.ReadsOwn schema.name property)
    : let before := e.trigger event entity rows s
      let after := (e.refitted schema property f).trigger event entity rows s
      List.Forall₂ (PairOutcome.AgreeExcept property) before.1.outcomes after.1.outcomes
      ∧ before.2.rows.AgreeExcept
          (fun place => place.entity = entity ∧ place.property = property) after.2.rows := by
  intro before after
  obtain rfl : schema.name = entity := Catalog.name_of_get? known
  have found : e.catalog.entity schema.name = .ok schema := by
    simp only [Catalog.entity, known]
  have refound : (e.refitted schema property f).catalog.entity schema.name
      = .ok (schema.refitted property f) := entity_refitted
  have each : ∀ p ∈ pairs schema rows,
      p.property.name ≠ property → ¬p.formula.ReadsOwn schema.name property := by
    intro p member
    obtain ⟨other, listed, ofRow⟩ := List.mem_flatMap.mp member
    obtain ⟨row, _, rfl⟩ := List.mem_map.mp ofRow
    exact unread other listed
  have left := e.processPairs_run event schema.name (pairs schema rows) s
  have right := (e.refitted schema property f).processPairs_run event schema.name
    ((pairs schema rows).map (·.refitted property f)) s
  have run := left.refitted found each right (.refl _ _)
  simp only [before, after, trigger_eq, found, refound, pairs_refitted, EntitySchema.name_refitted]
  exact run

open Engine in
/-- The size of a task is copied alike when the formula beside it becomes malformed. -/
theorem siblings_unaffected_malformed
    : let copying : Formula :=
        { id := "f", trigger := .always,
          components := [⟨0, .operand (.var "row.task.size")⟩] }
      let fixed : Formula :=
        { id := "g", resultAs := .boolean, trigger := .ifUnset,
          components := [⟨0, .operand (.literal (.bool true))⟩] }
      let malformed : Formula := { id := "h", trigger := .always, components := [] }
      let schema : EntitySchema :=
        { name := "task"
          properties := [
            { name := "size" }, { name := "done", formula := some fixed },
            { name := "copy", formula := some copying }] }
      let e : Engine := { catalog := .ofSchemas [schema] }
      let s : EngineState := { rows := ({} : RowStore).insertRow "task" "r" 0 }
      let before := e.trigger .afterCreated "task" ["r"] s
      let after := (e.refitted schema "done" malformed).trigger .afterCreated "task" ["r"] s
      e.catalog.get? "task" = some schema
      ∧ (∀ other ∈ schema.formulaProperties,
          other.1.name ≠ "done" → ¬other.2.ReadsOwn "task" "done")
      ∧ List.Forall₂ (PairOutcome.AgreeExcept "done") before.1.outcomes after.1.outcomes
      ∧ before.2.rows.AgreeExcept
          (fun place => place.entity = "task" ∧ place.property = "done") after.2.rows := by
  intro copying fixed malformed schema e s before after
  have unread : ∀ other ∈ schema.formulaProperties,
      other.1.name ≠ "done" → ¬other.2.ReadsOwn "task" "done" := by
    have listed : schema.formulaProperties
        = [(⟨"done", .text, .null, some fixed⟩, fixed),
          (⟨"copy", .text, .null, some copying⟩, copying)] := rfl
    have paths : copying.variablePaths = ["row.task.size"] := by cbv
    have segments : (pathSegments "row.task.size".toList).map String.ofList
        = ["row", "task", "size"] := by decide
    rw [listed]
    intro other member differs reads
    simp only [List.mem_cons, List.not_mem_nil, or_false] at member
    rcases member with rfl | rfl
    · exact differs rfl
    · exact absurd ((Formula.readsOwn_single paths segments).mp reads) (by decide)
  have run := siblings_unaffected e .afterCreated "task" schema "done" malformed ["r"] s rfl
    unread
  exact ⟨rfl, unread, run⟩

end RowFormula
