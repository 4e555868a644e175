import RowFormula.Proofs.Outcome
import RowFormula.Proofs.Rows.Keys
import RowFormula.Scenario.Basic

/-! Loading a scenario. It succeeds exactly on valid scenarios, and what is loaded is told by the
last declaration of an entity and the last row of a key: earlier ones leave nothing behind.
-/

namespace RowFormula

theorem PropertyKind.accepts_null (kind : PropertyKind) : kind.accepts .null := by
  cases kind <;> rfl

namespace EntitySchema

/-- The type of the first property with a name. -/
def kind? (e : EntitySchema) (property : String) : Option PropertyKind :=
  (e.property? property).map (·.kind)

theorem property?_withCoercedDefaults (e : EntitySchema) (property : String)
    : e.withCoercedDefaults.property? property
      = (e.property? property).map PropertySchema.withCoercedDefault := by
  simp only [withCoercedDefaults, property?, List.find?_map]
  rfl

theorem kind?_withCoercedDefaults (e : EntitySchema) (property : String)
    : e.withCoercedDefaults.kind? property = e.kind? property := by
  rw [kind?, property?_withCoercedDefaults, Option.map_map]
  rfl

end EntitySchema

/-- The value that a row has for a property, the last one if it has several. -/
def ScenarioRow.given? (row : ScenarioRow) (property : String) : Option Value :=
  (row.values.entries.filter (·.1 == property)).getLast?.map (·.2)

/-- The value that a row has for a property is one of those that it lists. -/
theorem ScenarioRow.mem_of_given? {row : ScenarioRow} {property : String} {v : Value}
    (given : row.given? property = some v)
    : (property, v) ∈ row.values.entries := by
  obtain ⟨entry, last, rfl⟩ := Option.map_eq_some_iff.mp given
  obtain ⟨listed, named⟩ := List.mem_filter.mp (List.mem_of_getLast? last)
  obtain rfl := eq_of_beq named
  exact listed

namespace Scenario

/-- The last entity that is declared with a name. -/
def lastEntity? (s : Scenario) (name : String) : Option EntitySchema :=
  (s.entities.filter (·.name == name)).getLast?

/-- The last row with a key. -/
def lastRow? (s : Scenario) (entity id : String) : Option ScenarioRow :=
  (s.rows.filter fun row => (row.entity, row.id) == (entity, id)).getLast?

/-- The declared type of a property. -/
def kind? (s : Scenario) (entity property : String) : Option PropertyKind :=
  (s.lastEntity? entity).bind (·.kind? property)

/-- The first declaration of a relationship. -/
def relationship? (s : Scenario) (entity id : String) : Option Relationship :=
  (s.lastEntity? entity).bind (·.relationship? id)

/-- Where the relations of a row lead through a relationship, in the order given. -/
def targets (s : Scenario) (entity row relationship : String) : List RowKey :=
  (s.relations.filter fun r =>
    ((r.entity, r.row), r.relationship) == ((entity, row), relationship)).map fun r =>
      (r.targetEntity, r.targetRow)

/-- The value with which a property of a row is loaded: the row's own, read as the declared
type, or null.
-/
def loadedValue (s : Scenario) (row : ScenarioRow) (property : String) : Value :=
  match s.kind? row.entity property, row.given? property with
  | some kind, some v => kind.coerce v
  | _, _ => .null

/-- A row belongs to a declared entity, and each of its values, read as the type of the property
that it names, fits that type.
-/
structure RowFits (s : Scenario) (row : ScenarioRow) : Prop where
  entity : (s.lastEntity? row.entity).isSome
  values
    : ∀ given ∈ row.values.entries,
        ∃ kind,
          s.kind? row.entity given.1 = some kind ∧ kind.accepts (kind.coerce given.2)

/-- A relation follows a declared relationship to the entity to which that leads. -/
def RelationFits (s : Scenario) (r : ScenarioRelation) : Prop :=
  ∃ declared,
    s.relationship? r.entity r.relationship = some declared ∧ declared.entity = r.targetEntity

/-- The rows and the relations of a scenario keep to its schemas. -/
structure Valid (s : Scenario) : Prop where
  rows : ∀ row ∈ s.rows, s.RowFits row
  relations : ∀ r ∈ s.relations, s.RelationFits r

/-- What a scenario says about the catalog and the rows that are loaded from it. -/
structure Describes (s : Scenario) (catalog : Catalog) (store : RowStore) : Prop where
  /-- The last entity of a name counts, with its defaults read as their types. -/
  schema
    : ∀ name, catalog.get? name = (s.lastEntity? name).map EntitySchema.withCoercedDefaults
  unlisted
    : ∀ {entity id},
        s.lastRow? entity id = none → store.row entity id = .error (.rowNotFound entity id)
  /-- The last row of a key counts, and its own values are all that it has. -/
  position
    : ∀ {entity id row},
        s.lastRow? entity id = some row → store.row entity id = .ok ⟨entity, id, row.order⟩
  value
    : ∀ {entity id row},
        s.lastRow? entity id = some row
        → ∀ property,
            store.readProperty entity id property = .ok (s.loadedValue row property)
  /-- Every value is accepted by the type that its property is declared with. -/
  fits
    : ∀ {entity id property v schema declared},
        store.readProperty entity id property = .ok v
        → catalog.get? entity = some schema
        → schema.property? property = some declared
        → declared.kind.accepts v
  /-- Relations are followed in the order in which they are listed. -/
  related
    : ∀ entity id relationship,
        store.relatedRows entity id relationship
        = (s.targets entity id relationship).mapM fun key => store.row key.1 key.2
  unwritten : store.writes = []

-----------------------------------------------------------------------------------------
-- The catalog
-----------------------------------------------------------------------------------------

theorem catalog_get? (s : Scenario) (name : String)
    : s.catalog.get? name = (s.lastEntity? name).map EntitySchema.withCoercedDefaults := by
  rw [catalog, Catalog.get?_ofSchemas, List.filter_map, List.getLast?_map]
  rfl

/-- The type of a property in the catalog is the declared one. -/
theorem catalog_kind? (s : Scenario) (entity property : String)
    : (s.catalog.get? entity).bind (·.kind? property) = s.kind? entity property := by
  rw [catalog_get?, kind?]
  cases s.lastEntity? entity with
  | none => rfl
  | some schema => exact schema.kind?_withCoercedDefaults property

theorem catalog_relationship? (s : Scenario) (entity id : String)
    : (s.catalog.get? entity).bind (·.relationship? id) = s.relationship? entity id := by
  rw [catalog_get?, relationship?]
  cases s.lastEntity? entity <;> rfl

-----------------------------------------------------------------------------------------
-- One row and one relation
-----------------------------------------------------------------------------------------

/-- A value read as the type of a property. -/
def coerced (s : Scenario) (entity property : String) (v : Value) : Value :=
  ((s.kind? entity property).map (·.coerce v)).getD .null

/-- The row as it is stored. -/
def storedRow (s : Scenario) (row : ScenarioRow) : StoredRow :=
  { order := row.order
    values :=
      .ofList (row.values.entries.map fun given =>
        (given.1, s.coerced row.entity given.1 given.2)) }

def addRow (s : Scenario) (store : RowStore) (row : ScenarioRow) : RowStore :=
  { store with rows := store.rows.insert (row.entity, row.id) (s.storedRow row) }

def addRelation (store : RowStore) (r : ScenarioRelation) : RowStore :=
  store.relate r.entity r.row r.relationship (r.targetEntity, r.targetRow)

section

variable {s : Scenario} {row : ScenarioRow} {schema : EntitySchema}

theorem checkValue_eq_ok_iff {property : String} {v read : Value}
    : checkValue schema row property v = .ok read
      ↔ ∃ kind,
          schema.kind? property = some kind
          ∧ kind.accepts (kind.coerce v)
          ∧ read = kind.coerce v := by
  simp only [checkValue, EntitySchema.kind?]
  cases schema.property? property with
  | none => simp
  | some declared =>
      by_cases fits : declared.kind.accepts (declared.kind.coerce v)
      · simp only [fits, if_true, Except.ok.injEq, Option.map_some, Option.some.injEq,
          exists_eq_left', true_and]
        exact eq_comm
      · simp [fits]

/-- Reading the values of a row succeeds exactly when each of them fits, by induction on them.
-/
theorem checkValues_eq_ok_iff (known : s.catalog.get? row.entity = some schema)
    {given read : List (String × Value)}
    : checkValues schema row given = .ok read
      ↔ (∀ entry ∈ given,
          ∃ kind,
            s.kind? row.entity entry.1 = some kind ∧ kind.accepts (kind.coerce entry.2))
        ∧ read = given.map fun entry => (entry.1, s.coerced row.entity entry.1 entry.2) := by
  have kind (property : String) : schema.kind? property = s.kind? row.entity property := by
    rw [← catalog_kind?, known]
    rfl
  induction given generalizing read with
  | nil =>
      simp only [checkValues, Except.ok.injEq, List.not_mem_nil, false_implies, implies_true,
        true_and, List.map_nil]
      exact eq_comm
  | cons entry rest ih =>
      obtain ⟨property, v⟩ := entry
      change (checkValue schema row property v).bind (fun v =>
        (checkValues schema row rest).bind fun others => .ok ((property, v) :: others))
          = .ok read ↔ _
      simp only [Except.bind_eq_ok_iff, checkValue_eq_ok_iff, ih, kind, List.forall_mem_cons,
        List.map_cons]
      constructor
      · rintro ⟨_, ⟨kind, declared, fits, rfl⟩, _, ⟨others, rfl⟩, same⟩
        refine ⟨⟨⟨kind, declared, fits⟩, others⟩, ?_⟩
        simpa [coerced, declared] using same.symm
      · rintro ⟨⟨⟨kind, declared, fits⟩, others⟩, rfl⟩
        refine ⟨_, ⟨kind, declared, fits, rfl⟩, _, ⟨others, rfl⟩, ?_⟩
        simp [coerced, declared]

/-- A row is added exactly when it fits. -/
theorem loadRow_eq_ok_iff {store after : RowStore}
    : loadRow s.catalog store row = .ok after
      ↔ s.RowFits row ∧ after = s.addRow store row := by
  simp only [loadRow]
  cases known : s.catalog.get? row.entity with
  | none =>
      have undeclared : s.lastEntity? row.entity = none := by
        simpa only [catalog_get?, Option.map_eq_none_iff] using known
      refine iff_of_false (nomatch ·) ?_
      rintro ⟨fits, _⟩
      simpa [undeclared] using fits.entity
  | some schema =>
      have declared : (s.lastEntity? row.entity).isSome := by
        obtain ⟨found, last, _⟩ := Option.map_eq_some_iff.mp ((s.catalog_get? _).symm.trans known)
        simp [last]
      change (checkValues schema row row.values.entries).bind _ = .ok after ↔ _
      simp only [Except.bind_eq_ok_iff, checkValues_eq_ok_iff known]
      constructor
      · rintro ⟨_, ⟨fits, rfl⟩, stored⟩
        exact ⟨⟨declared, fits⟩, (Except.ok.inj stored).symm⟩
      · rintro ⟨fits, rfl⟩
        exact ⟨_, ⟨fits.values, rfl⟩, rfl⟩

/-- A relation is added exactly when it fits. -/
theorem loadRelation_eq_ok_iff {store after : RowStore} {r : ScenarioRelation}
    : loadRelation s.catalog store r = .ok after
      ↔ s.RelationFits r ∧ after = addRelation store r := by
  simp only [loadRelation, catalog_relationship?, RelationFits, addRelation]
  cases s.relationship? r.entity r.relationship with
  | none => simp
  | some declared =>
      by_cases leads : declared.entity = r.targetEntity
      · simp [leads, eq_comm]
      · simp [leads]

end

-----------------------------------------------------------------------------------------
-- The whole scenario
-----------------------------------------------------------------------------------------

/-- The store with everything that the scenario lists. -/
def loadedStore (s : Scenario) : RowStore :=
  s.relations.foldl addRelation (s.rows.foldl s.addRow {})

/-- Loading succeeds exactly on valid scenarios, and then adds every row and every relation. -/
theorem load_eq_ok_iff {s : Scenario} {catalog : Catalog} {store : RowStore}
    : s.load = .ok (catalog, store)
      ↔ s.Valid ∧ catalog = s.catalog ∧ store = s.loadedStore := by
  change (s.rows.foldlM (loadRow s.catalog) {}).bind (fun rows =>
    (s.relations.foldlM (loadRelation s.catalog) rows).bind fun store =>
      .ok (s.catalog, store)) = .ok (catalog, store) ↔ _
  have rows {after : RowStore}
      : s.rows.foldlM (loadRow s.catalog) {} = .ok after
        ↔ (∀ row ∈ s.rows, s.RowFits row) ∧ after = s.rows.foldl s.addRow {} := by
    apply Except.foldlM_eq_ok_iff
    intro store row after
    exact loadRow_eq_ok_iff
  have relations {before after : RowStore}
      : s.relations.foldlM (loadRelation s.catalog) before = .ok after
        ↔ (∀ r ∈ s.relations, s.RelationFits r)
          ∧ after = s.relations.foldl addRelation before := by
    apply Except.foldlM_eq_ok_iff
    intro store r after
    exact loadRelation_eq_ok_iff
  simp only [Except.bind_eq_ok_iff, rows, relations]
  constructor
  · rintro ⟨_, ⟨rows, rfl⟩, _, ⟨relations, rfl⟩, same⟩
    obtain ⟨rfl, rfl⟩ := Prod.mk.inj (Except.ok.inj same)
    exact ⟨⟨rows, relations⟩, rfl, rfl⟩
  · rintro ⟨valid, rfl, rfl⟩
    exact ⟨_, ⟨valid.rows, rfl⟩, _, ⟨valid.relations, rfl⟩, rfl⟩

/-- Relations are added to what the rows left, by induction on the relations. -/
theorem foldl_addRelation (relations : List ScenarioRelation) (store : RowStore)
    : (relations.foldl addRelation store).rows = store.rows
      ∧ (relations.foldl addRelation store).writes = store.writes
      ∧ ∀ source id,
          (relations.foldl addRelation store).related source.1 source.2 id
          = store.related source.1 source.2 id
            ++ (relations.filter fun r =>
                ((r.entity, r.row), r.relationship) == (source, id)).map fun r =>
                  (r.targetEntity, r.targetRow) := by
  induction relations generalizing store with
  | nil => simp
  | cons r rest ih =>
      obtain ⟨rows, writes, related⟩ := ih (addRelation store r)
      refine ⟨rows, writes, fun source id => ?_⟩
      rw [List.foldl_cons, related, addRelation, RowStore.related_relate, List.append_assoc,
        List.filter_cons]
      by_cases same : ((r.entity, r.row), r.relationship) = (source, id)
      · simp [same]
      · simp [same, Ne.symm same]

/-- Rows are added one after another, by induction on them. -/
theorem foldl_addRow (s : Scenario) (rows : List ScenarioRow) (store : RowStore)
    : rows.foldl s.addRow store
      = { store with
          rows :=
            rows.foldl (fun t row => t.insert (row.entity, row.id) (s.storedRow row))
              store.rows } := by
  induction rows generalizing store with
  | nil => rfl
  | cons row rest ih => exact ih (s.addRow store row)

section

variable (s : Scenario)

/-- Under a key stands the last row that is listed with it. -/
theorem loadedStore_rows_get? (key : RowKey)
    : s.loadedStore.rows.get? key = (s.lastRow? key.1 key.2).map s.storedRow := by
  rw [loadedStore, (foldl_addRelation s.relations _).1, foldl_addRow, Table.get?_foldl_insert,
    Table.get?_empty, Option.or_none]
  rfl

theorem loadedStore_writes : s.loadedStore.writes = [] := by
  rw [loadedStore, (foldl_addRelation s.relations _).2.1, foldl_addRow]

theorem loadedStore_related (entity id relationship : String)
    : s.loadedStore.related entity id relationship = s.targets entity id relationship := by
  rw [loadedStore, (foldl_addRelation s.relations _).2.2 (entity, id), foldl_addRow]
  exact List.nil_append _

theorem mem_of_lastRow? {entity id : String} {row : ScenarioRow}
    (last : s.lastRow? entity id = some row)
    : row ∈ s.rows ∧ row.entity = entity ∧ row.id = id := by
  obtain ⟨listed, key⟩ := List.mem_filter.mp (List.mem_of_getLast? last)
  exact ⟨listed, Prod.mk.inj (eq_of_beq key)⟩

/-- A stored row has its own values, read as the declared types, and no others. -/
theorem storedRow_values_get? (row : ScenarioRow) (property : String)
    : ((s.storedRow row).values.get? property).getD .null = s.loadedValue row property := by
  have own : (s.storedRow row).values.get? property
      = (row.given? property).map (s.coerced row.entity property) := by
    simp only [storedRow, Table.get?_ofList, List.filter_map, List.getLast?_map, Option.map_map,
      ScenarioRow.given?]
    refine Option.map_congr fun entry last => ?_
    obtain ⟨_, named⟩ := List.mem_filter.mp (List.mem_of_getLast? last)
    obtain rfl := eq_of_beq named
    rfl
  rw [own]
  cases given : row.given? property <;> cases declared : s.kind? row.entity property <;>
    simp [loadedValue, coerced, given, declared]

theorem loadedStore_stored (entity id : String)
    : s.loadedStore.stored entity id
      = match s.lastRow? entity id with
        | none => .error (.rowNotFound entity id)
        | some row => .ok (s.storedRow row) := by
  rw [RowStore.stored, loadedStore_rows_get?]
  cases s.lastRow? entity id <;> rfl

theorem loadedStore_readProperty (entity id property : String)
    : s.loadedStore.readProperty entity id property
      = match s.lastRow? entity id with
        | none => .error (.rowNotFound entity id)
        | some row => .ok (s.loadedValue row property) := by
  rw [RowStore.readProperty, loadedStore_stored]
  cases s.lastRow? entity id with
  | none => rfl
  | some row => exact congrArg Except.ok (s.storedRow_values_get? row property)

variable {s}

/-- Whatever a valid scenario loads into a property is accepted by the property's type. -/
theorem Valid.accepts_loadedValue (valid : s.Valid) {row : ScenarioRow} (listed : row ∈ s.rows)
    {property : String} {kind : PropertyKind}
    (declared : s.kind? row.entity property = some kind)
    : kind.accepts (s.loadedValue row property) := by
  cases given : row.given? property with
  | none => simpa only [loadedValue, declared, given] using kind.accepts_null
  | some v =>
      obtain ⟨other, same, fits⟩ := (valid.rows row listed).values _ (row.mem_of_given? given)
      obtain rfl : other = kind := Option.some.inj (same.symm.trans declared)
      simpa only [loadedValue, declared, given] using fits

/-- A valid scenario describes what it lists. -/
theorem Valid.describes (valid : s.Valid) : s.Describes s.catalog s.loadedStore where
  schema := s.catalog_get?
  unlisted unlisted := by
    rw [RowStore.row, s.loadedStore_stored, unlisted]
    rfl
  position last := by
    obtain ⟨-, rfl, rfl⟩ := s.mem_of_lastRow? last
    rw [RowStore.row, s.loadedStore_stored, last]
    rfl
  value last property := by rw [s.loadedStore_readProperty, last]
  fits {entity id property v schema declared} read known found := by
    rw [s.loadedStore_readProperty] at read
    cases last : s.lastRow? entity id with
    | none => simp [last] at read
    | some row =>
        obtain ⟨listed, rfl, rfl⟩ := s.mem_of_lastRow? last
        obtain rfl : s.loadedValue row property = v := by simpa [last] using read
        apply valid.accepts_loadedValue listed
        rw [← s.catalog_kind?, known]
        simp [EntitySchema.kind?, found]
  related entity id relationship := by
    rw [← s.loadedStore_related]
    rfl
  unwritten := s.loadedStore_writes

end

end Scenario

/-- Loading a scenario. It succeeds exactly on valid scenarios, and then the scenario describes
what was loaded.
-/
theorem load_scenario (s : Scenario)
    : ((∃ loaded, s.load = .ok loaded) ↔ s.Valid)
      ∧ ∀ catalog store, s.load = .ok (catalog, store) → s.Describes catalog store := by
  constructor
  · constructor
    · rintro ⟨⟨catalog, store⟩, loaded⟩
      exact (Scenario.load_eq_ok_iff.mp loaded).1
    · intro valid
      exact ⟨_, Scenario.load_eq_ok_iff.mpr ⟨valid, rfl, rfl⟩⟩
  · intro catalog store loaded
    obtain ⟨valid, rfl, rfl⟩ := Scenario.load_eq_ok_iff.mp loaded
    exact valid.describes

/-- A row that is listed again keeps nothing of what was listed before, and its values are read
as the last declaration of its entity says.
-/
theorem load_scenario_relisted
    : let old : EntitySchema := { name := "item", properties := [⟨"note", .number, .null, none⟩] }
      let new : EntitySchema :=
        { name := "item", properties := [{ name := "note" }, { name := "label" }] }
      let rows : List ScenarioRow :=
        [ { entity := "item", id := "a", values := .ofList [("label", .text "first")] },
          { entity := "item", id := "a", values := .ofList [("note", .text "second")] } ]
      let scenario : Scenario := { entities := [old, new], rows }
      ∃ catalog store,
        scenario.load = .ok (catalog, store)
        ∧ store.readProperty "item" "a" "label" = .ok .null
        ∧ store.readProperty "item" "a" "note" = .ok (.text "second") := by
  intro old new rows scenario
  have loaded : scenario.load = .ok (scenario.catalog, scenario.loadedStore) := rfl
  have described := (load_scenario scenario).2 _ _ loaded
  have listed : scenario.lastRow? "item" "a" = some rows[1] := rfl
  exact ⟨_, _, loaded, described.value listed "label", described.value listed "note"⟩

end RowFormula
