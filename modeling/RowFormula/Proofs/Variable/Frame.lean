import RowFormula.Proofs.Log.Recording
import RowFormula.Proofs.Rows.Writes
import RowFormula.Proofs.Variable.Reading

/-! What the variables of a row's formula read. Stores that differ only in properties of
the row's own entity, none of which a variable names, give every variable the same value:
the other entities are reached through relationships, and those to the entity itself are
never followed.
-/

namespace RowFormula

/-- A path from a row to a property of its own entity, with or without a function. -/
def ReadsOwn (path entity property : String) : Prop :=
  let segments := (pathSegments path.toList).map String.ofList
  segments = ["row", entity, property]
  ∨ ∃ function, segments = ["row", entity, property, function]

/-- A variable of a formula reads a property of the row's own entity. -/
def Formula.ReadsOwn (f : Formula) (entity property : String) : Prop :=
  ∃ path ∈ f.variablePaths, RowFormula.ReadsOwn path entity property

-----------------------------------------------------------------------------------------
-- Bindings and relationships
-----------------------------------------------------------------------------------------

theorem VariableBindings.get?_ofRow (entity item name : String)
    : (VariableBindings.ofRow entity item).get? name
      = if name = "row" then some (.row entity item) else none := by
  simp only [VariableBindings.ofRow, Table.ofList, List.foldl_cons, List.foldl_nil,
    Table.get?_insert, Table.get?_empty, beq_iff_eq]

/-- A formula with a single variable reads the property that the variable names. -/
theorem Formula.readsOwn_single {f : Formula} {path entity property name : String}
    (paths : f.variablePaths = [path])
    (segments : (pathSegments path.toList).map String.ofList = ["row", entity, property])
    : f.ReadsOwn entity name ↔ property = name := by
  simp [ReadsOwn, RowFormula.ReadsOwn, paths, segments]

theorem EntitySchema.entity_of_relationshipTo? {schema : EntitySchema} {target : String}
    {relationship : Relationship} (found : schema.relationshipTo? target = some relationship)
    : relationship.entity = target := by
  have candidate : relationship ∈ schema.relationships.filter (·.entity == target) := by
    simp only [EntitySchema.relationshipTo?, Option.or_eq_some_iff] at found
    rcases found with parent | ⟨_, first⟩
    · exact List.mem_of_find?_eq_some parent
    · exact List.mem_of_head? first
  simpa using (List.mem_filter.mp candidate).2

-----------------------------------------------------------------------------------------
-- Stores that agree outside the places of one entity
-----------------------------------------------------------------------------------------

namespace Engine

variable {e : Engine} {f : Formula} {places : Place → Prop} {s t : RowStore}
  (agree : s.AgreeExcept places t)

include agree

theorem readProperty_frame {place : Place} (untouched : ¬places place)
    : (e.resolver f s).rows.readProperty place.entity place.row place.property
      = (e.resolver f t).rows.readProperty place.entity place.row place.property := by
  have same := agree.value place untouched
  simp only [RowStore.valueAt] at same
  simp only [RowAccess.readProperty, resolver, same]
  rfl

theorem row_frame (entity item : String)
    : (e.resolver f s).rows.row entity item = (e.resolver f t).rows.row entity item := by
  simp only [RowAccess.row, resolver, agree.row entity item]
  rfl

theorem relatedRows_frame (entity item relationship : String)
    : (e.resolver f s).rows.relatedRows entity item relationship
      = (e.resolver f t).rows.relatedRows entity item relationship := by
  simp only [RowAccess.relatedRows, resolver, agree.relatedRows entity item relationship]
  rfl

section

variable {schema : EntitySchema} {property : String}
  (untouched : ∀ row, ¬places ⟨schema.name, row, property⟩)

include untouched

theorem rawValue_frame (row : Row)
    : (e.resolver f s).rawValue schema row property
      = (e.resolver f t).rawValue schema row property := by
  simp only [VariableResolver.rawValue]
  rw [readProperty_frame agree (untouched row.id)]

theorem relatedValue_frame (path : String) (function : Option String) (related : List Row)
    : (e.resolver f s).relatedValue path schema property function related
      = (e.resolver f t).relatedValue path schema property function related :=
  relatedValue_congr fun row _ => rawValue_frame agree untouched row

end

variable {entity : String} (confined : ∀ place, places place → place.entity = entity)

include confined

/-- A path from a row reads its own entity only where it names it: the entities that are
reached through relationships have other names.
-/
theorem resolveOnRow_frame (path item target property : String) (function : Option String)
    (unread : target = entity → ∀ row, ¬places ⟨entity, row, property⟩)
    : (e.resolver f s).resolveOnRow path entity item target property function
      = (e.resolver f t).resolveOnRow path entity item target property function := by
  simp only [VariableResolver.resolveOnRow]
  refine Reading.bind_congr fun schema found => ?_
  have own : schema.name = entity := Catalog.name_of_entity (Reading.ofStore_eq_ok found)
  rw [row_frame agree entity item]
  refine Reading.bind_congr fun row _ => Reading.bind_congr fun _ _ => ?_
  by_cases same : target = schema.name
  · have untouched (row : String) : ¬places ⟨schema.name, row, property⟩ :=
      own ▸ unread (same.trans own) row
    simp only [same, if_true]
    exact ownValue_congr (rawValue_frame agree untouched row)
  · simp only [same, if_false]
    cases reached : schema.relationshipTo? target with
    | none => rfl
    | some relationship =>
        refine Reading.bind_congr fun related found => ?_
        have other : related.name = target :=
          (Catalog.name_of_entity (Reading.ofStore_eq_ok found)).trans
            (EntitySchema.entity_of_relationshipTo? reached)
        have untouched (row : String) : ¬places ⟨related.name, row, property⟩ := by
          intro touched
          have inside : related.name = entity := confined _ touched
          exact same (other.symm.trans (inside.trans own.symm))
        simp only [relatedRows_frame agree, relatedValue_frame agree untouched]

/-- A path reads the places of the row's own entity only if it spells one of them out. -/
theorem resolve_frame (path item : String)
    (unread : ∀ place, places place → ¬ReadsOwn path entity place.property)
    : (e.resolver f s).resolve path (.ofRow entity item)
      = (e.resolver f t).resolve path (.ofRow entity item) := by
  have onRow (target property : String) (function : Option String)
      (unread : target = entity → ∀ place, places place → place.property ≠ property)
      : (e.resolver f s).resolveOnRow path entity item target property function
        = (e.resolver f t).resolveOnRow path entity item target property function := by
    apply resolveOnRow_frame agree confined
    intro same row touched
    exact unread same _ touched rfl
  simp only [VariableResolver.resolve_eq, VariableBindings.get?_ofRow]
  simp only [ReadsOwn] at unread
  generalize (pathSegments path.toList).map String.ofList = segments at unread ⊢
  by_cases bound : segments.head?.getD "" = "row"
  · obtain ⟨rest, rfl⟩ : ∃ rest, segments = "row" :: rest := by
      cases segments with
      | nil => simp at bound
      | cons head rest => exact ⟨rest, by simpa using bound⟩
    rcases rest with _ | ⟨target, _ | ⟨property, _ | ⟨function, _ | _⟩⟩⟩
    · rfl
    · rfl
    · have same := onRow target property none fun own place touched equal =>
        unread place touched (.inl (by rw [own, equal]))
      simp only [List.head?_cons, Option.getD_some, List.tail_cons, if_true, same]
    · have same := onRow target property (some function) fun own place touched equal =>
        unread place touched (.inr ⟨function, by rw [own, equal]⟩)
      simp only [List.head?_cons, Option.getD_some, List.tail_cons, if_true, same]
    · rfl
  · simp only [bound, if_false]

/-- The variables of a formula that names none of the places have the same values in both
stores.
-/
theorem resolved_frame (request : CalculationRequest) (item : String)
    (onRow : request.bindings = .ofRow entity item)
    (unread : ∀ place, places place → ¬request.formula.ReadsOwn entity place.property)
    : e.resolved request s = e.resolved request t := by
  have same (path : String) (listed : path ∈ request.formula.variablePaths)
      : (e.resolver request.formula s).resolve path request.bindings
        = (e.resolver request.formula t).resolve path request.bindings := by
    rw [onRow]
    exact resolve_frame agree confined path item fun place touched reads =>
      unread place touched ⟨path, listed, reads⟩
  simp only [resolved, VariableResolver.resolveAll_eq]
  rw [Reading.forEach_congr fun path listed => ?_]
  rw [same path listed]

end Engine

end RowFormula
