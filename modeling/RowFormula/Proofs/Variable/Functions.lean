import RowFormula.Proofs.Variable.Visits

/-! Paths with a function that is not supported. The function is looked up only when there is a
value to reduce, so that such a path has a value where no row is related: the default of the
property, as without a function.
-/

namespace RowFormula

/-- The names of the functions that are supported. -/
def Aggregator.names : List String :=
  ["count", "sum", "avg", "min", "max", "first", "last", "join"]

theorem Aggregator.ofName_ne_ok {name : String} (unsupported : name ∉ names) (f : Aggregator)
    : ofName name ≠ .ok f := by
  intro found
  simp only [names, List.mem_cons, List.not_mem_nil, or_false, not_or] at unsupported
  unfold ofName at found
  split at found <;> simp_all

namespace VariableResolver

/-- A path leads from a row over a relationship to a property of another entity, of which no row is
related to that row.
-/
def LeadsToNone (r : VariableResolver) (bindings : VariableBindings)
    (path target property : String) (function : Option String) (related : EntitySchema) : Prop :=
  ∃ schema row rel,
    r.StartsFrom bindings path schema row target property function
    ∧ target ≠ schema.name
    ∧ schema.relationshipTo? target = some rel
    ∧ r.catalog.entity rel.entity = .ok related
    ∧ related.Readable property
    ∧ r.rows.relatedRows schema.name row.id rel.id = .ok []

/-- The default of a property can be read, unless that call fails. -/
def DefaultGiven (r : VariableResolver) (schema : EntitySchema) (property : String) : Prop :=
  ∀ declared,
    schema.property? property = some declared
    → r.rows.outage (.propertyDefault declared) = none

variable {r : VariableResolver} {schema : EntitySchema} {path property function : String}

theorem relatedValue_nil_eq_ok_iff {function : Option String} {v : Value}
    : (r.relatedValue path schema property function []).outcome = .ok v
      ↔ r.DefaultGiven schema property ∧ v = schema.defaultOf property := by
  simp only [relatedValue, DefaultGiven, EntitySchema.defaultOf]
  cases schema.property? property with
  | none => simp [Reading.pure, eq_comm]
  | some declared =>
      simp only [Reading.outcome_ofStore, Except.mapError_eq_ok_iff, RowAccess.propertyDefault,
        RowAccess.guarded_eq_ok_iff, Except.ok.injEq, Option.some.injEq, forall_eq',
        Option.map_some, Option.getD_some]
      exact and_congr_right fun _ => eq_comm

section

variable (unsupported : function ∉ Aggregator.names)

include unsupported

/-- A property of one row is not reduced by a function that is not supported. -/
theorem ownValue_ne_ok {row : Row} {v : Value}
    : (r.ownValue schema row property (some function)).outcome ≠ .ok v := by
  intro found
  simp only [ownValue, Reading.outcome_bind, Reading.outcome_ofExcept, Except.bind_eq_ok_iff]
    at found
  obtain ⟨_, _, f, supported, _⟩ := found
  exact Aggregator.ofName_ne_ok unsupported f supported

/-- Over a relationship the function is looked up as soon as a row is related. -/
theorem relatedValue_eq_ok_iff {rows : List Row} {v : Value}
    : (r.relatedValue path schema property (some function) rows).outcome = .ok v
      ↔ rows = [] ∧ r.DefaultGiven schema property ∧ v = schema.defaultOf property := by
  match rows with
  | [] => simp only [relatedValue_nil_eq_ok_iff, true_and]
  | [row] =>
      simp only [relatedValue, Reading.outcome_bind, Reading.outcome_visit, Except.bind,
        List.cons_ne_nil, false_and, iff_false]
      exact ownValue_ne_ok unsupported
  | first :: second :: others =>
      simp only [relatedValue, Reading.outcome_bind, Reading.outcome_ofExcept,
        Except.bind_eq_ok_iff, List.cons_ne_nil, false_and, iff_false]
      rintro ⟨f, supported, _⟩
      exact Aggregator.ofName_ne_ok unsupported f supported

theorem resolveOnRow_eq_ok_iff {entity item target : String} {v : Value}
    : (r.resolveOnRow path entity item target property (some function)).outcome = .ok v
      ↔ ∃ schema row,
          r.catalog.entity entity = .ok schema
          ∧ r.rows.row entity item = .ok row
          ∧ target ≠ schema.name
          ∧ ∃ rel, schema.relationshipTo? target = some rel
          ∧ ∃ related, r.catalog.entity rel.entity = .ok related
          ∧ related.Readable property
          ∧ r.rows.relatedRows schema.name row.id rel.id = .ok []
          ∧ r.DefaultGiven related property
          ∧ v = related.defaultOf property := by
  simp only [resolveOnRow, Reading.outcome_bind, Reading.outcome_ofStore, Reading.outcome_visit,
    Except.bind_eq_ok_iff, Except.mapError_eq_ok_iff, true_and, exists_const]
  refine exists_congr fun schema => ?_
  rw [← exists_and_left]
  refine exists_congr fun row => and_congr_right fun _ => and_congr_right fun _ => ?_
  by_cases own : target = schema.name
  · simp [own, ownValue_ne_ok unsupported]
  · cases schema.relationshipTo? target with
    | none => simp [own, Reading.fail]
    | some rel =>
        simp only [own, if_false, Reading.outcome_bind, Reading.outcome_ofStore,
          Except.bind_eq_ok_iff, Except.mapError_eq_ok_iff, Option.some.injEq, ne_eq,
          not_false_eq_true, true_and, exists_eq_left']
        refine exists_congr fun related => and_congr_right fun _ => ?_
        by_cases readable : related.Readable property
        · have passes := mt EntitySchema.unreadable_iff.mp (not_not_intro readable)
          rw [if_neg passes]
          simp only [readable, Reading.outcome_bind, Reading.outcome_ofStore,
            Except.bind_eq_ok_iff, Except.mapError_eq_ok_iff, relatedValue_eq_ok_iff unsupported,
            true_and]
          constructor
          · rintro ⟨rows, leads, rfl, given⟩
            exact ⟨leads, given⟩
          · rintro ⟨leads, given⟩
            exact ⟨[], leads, rfl, given⟩
        · have refused := EntitySchema.unreadable_iff.mpr readable
          rw [if_pos refused]
          simp [readable, Reading.fail]

end

end VariableResolver

/-- A path with a function that is not supported has a value only where no row is related: it has
the default of the property then. From a property of the row itself, and as soon as one row is
related, it has none.
-/
theorem unsupported_function_value (r : VariableResolver) (bindings : VariableBindings)
    (path binding entity item target property function : String)
    (segments
      : (pathSegments path.toList).map String.ofList = [binding, target, property, function])
    (bound : bindings.get? binding = some (.row entity item))
    (unsupported : function ∉ Aggregator.names) (answer : Option Value)
    : (r.resolve path bindings).outcome = .ok answer
      ↔ ∃ related,
          r.LeadsToNone bindings path target property (some function) related
          ∧ r.DefaultGiven related property
          ∧ answer = some (related.defaultOf property) := by
  have named : (pathSegments path.toList).map String.ofList
      = binding :: target :: property :: (some function).toList := segments
  simp only [VariableResolver.LeadsToNone, VariableResolver.startsFrom_iff named bound]
  by_cases free : binding ∈ reservedNames
  · have reserved : (r.resolve path bindings).outcome
        = .error (.unsupportedNamespace binding) := by
      simp [VariableResolver.resolve_eq, segments, free, Reading.fail]
    simp [reserved, free]
  · rw [VariableResolver.resolve_of_row named free bound, Reading.outcome_map,
      Except.map_eq_ok_iff]
    simp only [VariableResolver.resolveOnRow_eq_ok_iff unsupported]
    constructor
    · rintro ⟨v, ⟨schema, row, known, present, other, rel, follows, related, reached, readable,
        leads, given, rfl⟩, rfl⟩
      exact ⟨related, ⟨schema, row, rel, ⟨free, known, present⟩, other, follows, reached,
        readable, leads⟩, given, rfl⟩
    · rintro ⟨related, ⟨schema, row, rel, ⟨-, known, present⟩, other, follows, reached,
        readable, leads⟩, given, rfl⟩
      exact ⟨_, ⟨schema, row, known, present, other, rel, follows, related, reached, readable,
        leads, given, rfl⟩, rfl⟩

/-- An invoice with one line: the median of the quantities is refused. -/
theorem unsupported_function_value_related
    : let invoices : EntitySchema :=
        { name := "invoice", relationships := [⟨"lines", "line", .child⟩] }
      let lines : EntitySchema :=
        { name := "line"
          properties := [{ name := "quantity", kind := .number, default := .number 1 }] }
      let s : RowStore :=
        ((({} : RowStore).insertRow "invoice" "i" 0).insertRow "line" "a" 0).relate
          "invoice" "i" "lines" ("line", "a")
      let r : VariableResolver :=
        { catalog := .ofSchemas [invoices, lines], rows := { store := s }, resultAs := .number }
      let bindings := VariableBindings.ofRow "invoice" "i"
      let path := "row.line.quantity.median"
      (pathSegments path.toList).map String.ofList = ["row", "line", "quantity", "median"]
      ∧ bindings.get? "row" = some (.row "invoice" "i")
      ∧ "median" ∉ Aggregator.names
      ∧ ∀ answer, (r.resolve path bindings).outcome ≠ .ok answer := by
  intro invoices lines s r bindings path
  have segments : (pathSegments path.toList).map String.ofList
      = ["row", "line", "quantity", "median"] := by decide
  have bound : bindings.get? "row" = some (.row "invoice" "i") := rfl
  have unsupported : "median" ∉ Aggregator.names := by decide
  refine ⟨segments, bound, unsupported, fun answer found => ?_⟩
  obtain ⟨related, ⟨_, _, _, starts, _, follows, _, _, leads⟩, _⟩ :=
    (unsupported_function_value r bindings path "row" "invoice" "i" "line" "quantity" "median"
      segments bound unsupported answer).mp found
  obtain ⟨-, known, present⟩ := (VariableResolver.startsFrom_iff segments bound).mp starts
  have schema : r.catalog.entity "invoice" = .ok invoices := rfl
  have row : r.rows.row "invoice" "i" = .ok ⟨"invoice", "i", 0⟩ := rfl
  obtain rfl := Except.ok.inj (schema.symm.trans known)
  obtain rfl := Except.ok.inj (row.symm.trans present)
  have rel : invoices.relationshipTo? "line" = some ⟨"lines", "line", .child⟩ := rfl
  obtain rfl := Option.some.inj (rel.symm.trans follows)
  have one : r.rows.relatedRows "invoice" "i" "lines" = .ok [⟨"line", "a", 0⟩] := rfl
  rw [one] at leads
  simp at leads

/-- An invoice without lines: the median of the quantities is the default of a quantity. -/
theorem unsupported_function_of_no_row
    : let invoices : EntitySchema :=
        { name := "invoice", relationships := [⟨"lines", "line", .child⟩] }
      let lines : EntitySchema :=
        { name := "line"
          properties := [{ name := "quantity", kind := .number, default := .number 1 }] }
      let s : RowStore := ({} : RowStore).insertRow "invoice" "i" 0
      let r : VariableResolver :=
        { catalog := .ofSchemas [invoices, lines], rows := { store := s }, resultAs := .number }
      "median" ∉ Aggregator.names
      ∧ (r.resolve "row.line.quantity.median" (.ofRow "invoice" "i")).outcome
        = .ok (some (.number 1)) := by
  intro invoices lines s r
  have segments : (pathSegments "row.line.quantity.median".toList).map String.ofList
      = "row" :: "line" :: "quantity" :: (some "median").toList := by decide
  refine ⟨by decide, ?_⟩
  rw [VariableResolver.resolve_of_row segments (by decide) rfl]
  cbv

end RowFormula
