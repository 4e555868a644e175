import Mathlib
import RowFormula.Proofs.Rows.Keys
import RowFormula.Proofs.Variable.Frame
import RowFormula.Proofs.Variable.Reading

/-! What a path over a relationship gives: no related row, one, and several are three cases
of one rule, and the relationship is the first to a parent, or else the first to a child.
-/

namespace RowFormula

/-- A relationship is the first of its kind that leads to an entity. -/
def EntitySchema.FirstTo (e : EntitySchema) (target : String) (kind : RelationshipKind)
    (rel : Relationship) : Prop :=
  ∃ earlier later,
    e.relationships = earlier ++ rel :: later
    ∧ rel.entity = target
    ∧ rel.kind = kind
    ∧ ∀ other ∈ earlier, ¬(other.entity = target ∧ other.kind = kind)

/-- The relationship that is followed to an entity: the first to a parent, or the first to a
child when there is no parent.
-/
def EntitySchema.Follows (e : EntitySchema) (target : String) (rel : Relationship) : Prop :=
  e.FirstTo target .parent rel
  ∨ (∀ other ∈ e.relationships, ¬(other.entity = target ∧ other.kind = .parent))
    ∧ e.FirstTo target .child rel

/-- A property as a stored row shows it: the row's position, or the stored value. -/
def StoredRow.shown (found : StoredRow) (property : String) : Value :=
  if property = orderProperty then .number found.order
  else (found.values.get? property).getD .null

/-- A property of the row under a key, null when there is no row. -/
def RowStore.shown (s : RowStore) (property : String) (key : RowKey) : Value :=
  ((s.rows.get? key).map (·.shown property)).getD .null

/-- A property of an entity that can be read: a declared one, or the position. -/
def EntitySchema.Readable (e : EntitySchema) (property : String) : Prop :=
  (e.property? property).isSome ∨ property = orderProperty

/-- The declared default of a property, null when it is not declared. -/
def EntitySchema.defaultOf (e : EntitySchema) (property : String) : Value :=
  ((e.property? property).map (·.default)).getD .null

/-- What becomes of the values of related rows: a function reduces them, however many there
are, and without one there must be a single value.
-/
def reduced (path : String) : Option String → List Value → Except ResolutionError Value
  | some name, values => (Aggregator.ofName name).map (·.apply values)
  | none, [v] => .ok v
  | none, _ => .error (.multipleValues path)

-----------------------------------------------------------------------------------------
-- The relationship that is followed
-----------------------------------------------------------------------------------------

namespace EntitySchema

variable {e : EntitySchema} {target : String}

theorem firstTo_iff {kind : RelationshipKind} {rel : Relationship}
    : e.FirstTo target kind rel
      ↔ (e.relationships.filter (·.entity == target)).find? (·.kind == kind) = some rel := by
  simp only [List.find?_filter, List.find?_eq_some_iff_append, FirstTo, decide_eq_true_eq,
    beq_iff_eq, Bool.not_eq_true', decide_eq_false_iff_not]
  constructor
  · rintro ⟨earlier, later, listed, leads, alike, first⟩
    exact ⟨⟨leads, alike⟩, earlier, later, listed, first⟩
  · rintro ⟨⟨leads, alike⟩, earlier, later, listed, first⟩
    exact ⟨earlier, later, listed, leads, alike, first⟩

theorem no_parent_iff
    : (∀ other ∈ e.relationships, ¬(other.entity = target ∧ other.kind = .parent))
      ↔ (e.relationships.filter (·.entity == target)).find? (·.kind == .parent) = none := by
  simp only [List.find?_eq_none, List.mem_filter, beq_iff_eq, and_imp, not_and]

/-- When no parent is found the first of the relationships is taken, which is then a child. -/
theorem relationshipTo?_eq_some_iff {rel : Relationship}
    : e.relationshipTo? target = some rel ↔ e.Follows target rel := by
  simp only [relationshipTo?, Option.or_eq_some_iff, Follows, firstTo_iff, no_parent_iff]
  refine or_congr_right (and_congr_right fun noParent => ?_)
  have children : ∀ r ∈ e.relationships.filter (·.entity == target), r.kind = .child := by
    intro r member
    have other := List.find?_eq_none.mp noParent r member
    cases alike : r.kind with
    | parent => simp [alike] at other
    | child => rfl
  cases listed : e.relationships.filter (·.entity == target) with
  | nil => rfl
  | cons first rest =>
    have child : first.kind = .child := children first (by simp [listed])
    simp [child]

theorem relationshipTo?_eq_none_iff
    : e.relationshipTo? target = none ↔ ∀ rel ∈ e.relationships, rel.entity ≠ target := by
  simp only [relationshipTo?, Option.or_eq_none_iff, List.head?_eq_none_iff,
    List.filter_eq_nil_iff, beq_iff_eq]
  constructor
  · exact And.right
  · intro elsewhere
    refine ⟨no_parent_iff.mp fun other member => ?_, elsewhere⟩
    exact fun leads => elsewhere other member leads.1

/-- A path over a relationship is refused for the properties that cannot be read. -/
theorem unreadable_iff {property : String}
    : (property ≠ orderProperty && (e.property? property).isNone) = true
      ↔ ¬e.Readable property := by
  cases found : e.property? property <;> simp [Readable, found]

end EntitySchema

-----------------------------------------------------------------------------------------
-- The values of related rows
-----------------------------------------------------------------------------------------

namespace VariableResolver

theorem reduced_several {path : String} {values : List Value} (several : 2 ≤ values.length)
    : reduced path none values = .error (.multipleValues path) := by
  match values with
  | _ :: _ :: _ => rfl

section

variable {r : VariableResolver} {schema : EntitySchema} {path property : String}
  {function : Option String}

theorem ownValue_outcome {row : Row} {v : Value}
    (read : (r.rawValue schema row property).outcome = .ok v)
    : (r.ownValue schema row property function).outcome = reduced path function [v] := by
  simp only [ownValue, Reading.outcome_bind, read, Except.bind]
  cases function with
  | none => rfl
  | some name =>
      simp only [Reading.outcome_bind, Reading.outcome_ofExcept, Reading.outcome_pure, reduced]
      rfl

/-- One related row and several give what the one rule makes of their values. -/
theorem relatedValue_outcome {rows : List Row} {values : List Value} (related : rows ≠ [])
    (read
      : rows.map (fun row => (r.rawValue schema row property).outcome) = values.map .ok)
    : (r.relatedValue path schema property function rows).outcome
      = reduced path function values := by
  match rows with
  | [row] =>
      obtain ⟨v, rfl, same⟩ := List.map_eq_singleton_iff.mp read.symm
      simp only [relatedValue, Reading.outcome_bind, Reading.outcome_visit, Except.bind]
      exact ownValue_outcome same.symm
  | first :: second :: others =>
      cases function with
      | none =>
          have length : values.length = others.length + 2 := by
            simpa using (congrArg List.length read).symm
          have several : 2 ≤ values.length := by omega
          simp only [relatedValue, reduced_several several]
          rfl
      | some name =>
          have each := Except.mapM_eq_ok_iff.mpr read
          simp only [relatedValue, Reading.outcome_bind, Reading.outcome_ofExcept,
            Reading.outcome_forEach, Reading.outcome_visit, Reading.outcome_pure, reduced]
          cases Aggregator.ofName name with
          | error cause => rfl
          | ok f =>
              simp only [Except.bind, each]
              rfl

section

variable (working : r.rows.outage = .none)

include working

/-- Without a related row the property has its default. -/
theorem relatedValue_nil
    : (r.relatedValue path schema property function []).outcome
      = .ok (schema.defaultOf property) := by
  simp only [relatedValue, EntitySchema.defaultOf]
  cases schema.property? property with
  | none => rfl
  | some declared =>
      simp only [RowAccess.propertyDefault, RowAccess.guarded, working]
      rfl

/-- A stored row shows the properties that can be read. -/
theorem rawValue_outcome {found : StoredRow} {id : String}
    (present : r.rows.store.rows.get? (schema.name, id) = some found)
    (readable : schema.Readable property)
    : (r.rawValue schema (found.row (schema.name, id)) property).outcome
      = .ok (found.shown property) := by
  simp only [rawValue, StoredRow.shown]
  by_cases position : property = orderProperty
  · rw [if_pos position, if_pos position]
    rfl
  · have declared := readable.resolve_right position
    rw [if_neg position, if_neg position, Option.isNone_eq_false_iff.mpr declared]
    simp only [Bool.false_eq_true, if_false, Reading.outcome_ofStore, RowAccess.readProperty,
      RowAccess.guarded, working, Outage.none, RowStore.readProperty, StoredRow.row,
      RowStore.stored_eq_ok_iff.mpr present]
    rfl

/-- The related rows are read in the order in which they were related, each as often as it
was.
-/
theorem relatedRows_shown {entity item relationship : String}
    (readable : schema.Readable property)
    (present
      : ∀ key ∈ r.rows.store.related entity item relationship,
          key.1 = schema.name ∧ (r.rows.store.rows.get? key).isSome)
    : ∃ rows,
        r.rows.relatedRows entity item relationship = .ok rows
        ∧ rows.map (fun row => (r.rawValue schema row property).outcome)
          = ((r.rows.store.related entity item relationship).map
              (r.rows.store.shown property)).map .ok := by
  obtain ⟨rows, read, same⟩ :=
    RowStore.relatedRows_eq_ok fun key member => (present key member).2
  refine ⟨rows, ?_, ?_⟩
  · simp only [RowAccess.relatedRows, RowAccess.guarded, working]
    exact read
  · have each (key : RowKey) (member : key ∈ r.rows.store.related entity item relationship)
        : ((r.rows.store.rows.get? key).map (·.row key)).map
            (fun row => (r.rawValue schema row property).outcome)
          = some (.ok (r.rows.store.shown property key)) := by
      obtain ⟨inside, exist⟩ := present key member
      obtain ⟨found, stored⟩ := Option.isSome_iff_exists.mp exist
      obtain ⟨keyEntity, id⟩ := key
      obtain rfl : keyEntity = schema.name := inside
      simp only [stored, Option.map_some, RowStore.shown, Option.getD_some,
        rawValue_outcome working stored readable]
    have values := congrArg
      (List.map (Option.map fun row => (r.rawValue schema row property).outcome)) same
    rw [List.map_map, List.map_map] at values
    apply List.map_injective_iff.mpr (Option.some_injective _)
    rw [List.map_map, List.map_map, List.map_map]
    exact values.symm.trans (List.map_congr_left each)

end

end

end VariableResolver

-----------------------------------------------------------------------------------------
-- Paths over a relationship
-----------------------------------------------------------------------------------------

section

variable {r : VariableResolver} {path entity item target property : String}
  {function : Option String} {schema : EntitySchema}
  (working : r.rows.outage = .none) (known : r.catalog.get? entity = some schema)
  (present : (r.rows.store.rows.get? (entity, item)).isSome)

theorem entity_outcome {name : String} {schema : EntitySchema}
    (known : r.catalog.get? name = some schema)
    : (Reading.ofStore (r.catalog.entity name)).outcome = .ok schema := by
  simp only [Reading.outcome_ofStore, Catalog.entity, known]
  rfl

include working present in
theorem row_outcome
    : ∃ row, (Reading.ofStore (r.rows.row entity item)).outcome = .ok row ∧ row.id = item := by
  obtain ⟨found, stored⟩ := Option.isSome_iff_exists.mp present
  refine ⟨found.row (entity, item), ?_, rfl⟩
  simp only [Reading.outcome_ofStore, RowAccess.row, RowAccess.guarded, working]
  exact congrArg (Except.mapError _) (RowStore.row_of_get? stored)

variable (other : target ≠ entity)

include working known present other

/-- An entity that no relationship leads to is not reached. -/
theorem resolveOnRow_unrelated (elsewhere : schema.relationshipTo? target = none)
    : (r.resolveOnRow path entity item target property function).outcome
      = .error (.unknownEntity path target entity) := by
  obtain ⟨row, rowFound, rfl⟩ := row_outcome working present
  obtain rfl : schema.name = entity := Catalog.name_of_get? known
  simp only [VariableResolver.resolveOnRow]
  rw [Reading.outcome_bind_of_ok (entity_outcome known), Reading.outcome_bind_of_ok rowFound,
    Reading.outcome_bind_of_ok rfl, if_neg other]
  simp only [elsewhere]
  rfl

/-- Another entity than the row's own is reached through the relationship that is followed. -/
theorem resolveOnRow_related {rel : Relationship} {related : EntitySchema} {rows : List Row}
    (follows : schema.relationshipTo? target = some rel)
    (reached : r.catalog.get? rel.entity = some related) (readable : related.Readable property)
    (read : r.rows.relatedRows entity item rel.id = .ok rows)
    : (r.resolveOnRow path entity item target property function).outcome
      = (r.relatedValue path related property function rows).outcome := by
  obtain ⟨row, rowFound, rfl⟩ := row_outcome working present
  obtain rfl : schema.name = entity := Catalog.name_of_get? known
  have rowsFound
      : (Reading.ofStore (r.rows.relatedRows schema.name row.id rel.id)).outcome = .ok rows := by
    rw [Reading.outcome_ofStore, read]
    rfl
  simp only [VariableResolver.resolveOnRow]
  rw [Reading.outcome_bind_of_ok (entity_outcome known), Reading.outcome_bind_of_ok rowFound,
    Reading.outcome_bind_of_ok rfl, if_neg other]
  simp only [follows]
  rw [Reading.outcome_bind_of_ok (entity_outcome reached),
    if_neg (mt EntitySchema.unreadable_iff.mp (not_not_intro readable)),
    Reading.outcome_bind_of_ok rowsFound]

end

/-- What a path over a relationship gives, when no call fails. The relationship that is
followed is the first to a parent, or else the first to a child. Without a related row the
property has its default, a function reduces the values of all related rows, however many
there are, and without a function there must not be several.
-/
theorem resolve_over_relationship (r : VariableResolver) (bindings : VariableBindings)
    (path binding entity item target property : String) (function : Option String)
    (schema : EntitySchema)
    (working : r.rows.outage = .none) (known : r.catalog.get? entity = some schema)
    (present : (r.rows.store.rows.get? (entity, item)).isSome)
    (free : binding ∉ reservedNames)
    (bound : bindings.get? binding = some (.row entity item))
    (segments
      : (pathSegments path.toList).map String.ofList
        = binding :: target :: property :: function.toList)
    (other : target ≠ entity)
    : let answer := (r.resolve path bindings).outcome
      ((∀ rel ∈ schema.relationships, rel.entity ≠ target)
        → answer = .error (.unknownEntity path target entity))
      ∧ ((∃ rel ∈ schema.relationships, rel.entity = target) → ∃ rel, schema.Follows target rel)
      ∧ ∀ rel related, schema.Follows target rel → r.catalog.get? target = some related
        → related.Readable property
        → let keys := r.rows.store.related entity item rel.id
          let values := keys.map (r.rows.store.shown property)
          (∀ key ∈ keys, key.1 = target ∧ (r.rows.store.rows.get? key).isSome)
          → (keys = [] → answer = .ok (some (related.defaultOf property)))
            ∧ (keys ≠ [] → answer = (reduced path function values).map some) := by
  intro answer
  have onRow : answer
      = (r.resolveOnRow path entity item target property function).outcome.map some := by
    rw [← Reading.outcome_map, ← VariableResolver.resolve_of_row segments free bound]
  refine ⟨?_, ?_, ?_⟩
  · intro elsewhere
    have unreached := EntitySchema.relationshipTo?_eq_none_iff.mpr elsewhere
    rw [onRow, resolveOnRow_unrelated working known present other unreached]
    rfl
  · rintro ⟨rel, member, leads⟩
    cases followed : schema.relationshipTo? target with
    | none =>
        have elsewhere := EntitySchema.relationshipTo?_eq_none_iff.mp followed
        exact absurd leads (elsewhere rel member)
    | some first => exact ⟨first, EntitySchema.relationshipTo?_eq_some_iff.mp followed⟩
  · intro rel related follows reached readable keys values inside
    have followed := EntitySchema.relationshipTo?_eq_some_iff.mpr follows
    have toTarget := EntitySchema.entity_of_relationshipTo? followed
    obtain rfl : related.name = target := Catalog.name_of_get? reached
    obtain ⟨rows, read, shown⟩ :=
      VariableResolver.relatedRows_shown working readable inside
    rw [resolveOnRow_related working known present other followed
      (toTarget.symm ▸ reached) readable read] at onRow
    have length : rows.length = keys.length := by
      simpa using congrArg List.length shown
    refine ⟨fun absent => ?_, fun any => ?_⟩
    · have unrelated : rows = [] := by
        rw [← List.length_eq_zero_iff, length, absent]
        rfl
      rw [onRow, unrelated, VariableResolver.relatedValue_nil working]
      rfl
    · have related : rows ≠ [] := by
        rw [← List.length_pos_iff, length]
        exact List.length_pos_iff.mpr any
      rw [onRow, VariableResolver.relatedValue_outcome related shown]

/-- An invoice with one child and two parents among its lines: the lines of the first parent
are read, one of them twice.
-/
theorem resolve_over_relationship_last
    : let schema : EntitySchema :=
        { name := "invoice", relationships := [
            ⟨"child", "line", .child⟩, ⟨"first", "line", .parent⟩,
            ⟨"second", "line", .parent⟩] }
      let lines : EntitySchema := { name := "line" }
      let s : RowStore :=
        ((({} : RowStore).insertRow "invoice" "i" 0).insertRow "line" "a" 1).insertRow
          "line" "b" 2
      let s : RowStore :=
        (((s.relate "invoice" "i" "first" ("line", "b")).relate
          "invoice" "i" "first" ("line", "a")).relate
          "invoice" "i" "first" ("line", "b")).relate "invoice" "i" "child" ("line", "a")
      let r : VariableResolver :=
        { catalog := .ofSchemas [schema, lines], rows := ⟨s, .none⟩, resultAs := .number }
      let bindings := VariableBindings.ofRow "invoice" "i"
      schema.Follows "line" ⟨"first", "line", .parent⟩
      ∧ s.related "invoice" "i" "first" = [("line", "b"), ("line", "a"), ("line", "b")]
      ∧ (r.resolve "row.line.order.last" bindings).outcome = .ok (some (.number 2)) := by
  intro schema lines s s r bindings
  have follows : schema.Follows "line" ⟨"first", "line", .parent⟩ :=
    EntitySchema.relationshipTo?_eq_some_iff.mp (by decide)
  have keys : s.related "invoice" "i" "first"
      = [("line", "b"), ("line", "a"), ("line", "b")] := by cbv
  have segments : (pathSegments "row.line.order.last".toList).map String.ofList
      = "row" :: "line" :: "order" :: (some "last").toList := by decide
  have inside : ∀ key ∈ s.related "invoice" "i" "first",
      key.1 = "line" ∧ (s.rows.get? key).isSome := by
    rw [keys]
    decide
  have answer := resolve_over_relationship r bindings "row.line.order.last" "row" "invoice" "i"
    "line" "order" (some "last") schema rfl rfl rfl (by decide) rfl segments
    (by decide)
  have given := (answer.2.2 _ lines follows rfl (.inr rfl) inside).2 (by rw [keys]; decide)
  refine ⟨follows, keys, given.trans ?_⟩
  cbv

end RowFormula
