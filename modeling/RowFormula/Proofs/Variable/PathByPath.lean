import Mathlib
import RowFormula.Proofs.Formula.Occurrences
import RowFormula.Proofs.Variable.Visits

/-! Resolving the variables of a formula is resolving its paths one after another: what one path
gives does not depend on the others, the first one that fails ends the whole, and of the rows that
are read each is noted once.
-/

namespace RowFormula

namespace VariableResolver

variable {r : VariableResolver} {bindings : VariableBindings} {path : String}

/-- The rows that are read for a path that is resolved, in order: the row that it starts from, and
then those that a relationship leads to. A path that starts from no row reads none.
-/
inductive RowsRead (r : VariableResolver) (bindings : VariableBindings) (path : String)
    : List String → Prop where
  | none
      (elsewhere
        : ∀ schema row target property function,
            ¬r.StartsFrom bindings path schema row target property function)
      : RowsRead r bindings path []
  | own {schema : EntitySchema} {row : Row} {target property : String}
      {function : Option String}
      (starts : r.StartsFrom bindings path schema row target property function)
      (same : target = schema.name)
      : RowsRead r bindings path [row.id]
  | related {schema : EntitySchema} {row : Row} {target property : String}
      {function : Option String} {rel : Relationship} {rows : List Row}
      (starts : r.StartsFrom bindings path schema row target property function)
      (other : target ≠ schema.name)
      (follows : schema.relationshipTo? target = some rel)
      (leads : r.rows.relatedRows schema.name row.id rel.id = .ok rows)
      : RowsRead r bindings path (row.id :: rows.map Row.id)

/-- A path that is resolved on a row has read the row, and then every row that its relationship
leads to if it goes over one.
-/
theorem rowIds_of_resolveOnRow {entity item target property : String}
    {function : Option String} {v : Value} {ids : List String}
    (read : r.resolveOnRow path entity item target property function = ⟨.ok v, ids⟩)
    : ∃ schema row,
        r.catalog.entity entity = .ok schema
        ∧ r.rows.row entity item = .ok row
        ∧ (target = schema.name ∧ ids = [row.id]
          ∨ target ≠ schema.name
            ∧ ∃ rel, schema.relationshipTo? target = some rel
            ∧ ∃ rows, r.rows.relatedRows schema.name row.id rel.id = .ok rows
            ∧ ids = row.id :: rows.map Row.id) := by
  simp only [resolveOnRow] at read
  obtain ⟨schema, _, _, asked, fromSchema, rfl⟩ := Reading.bind_eq_ok_iff.mp read
  obtain ⟨row, _, _, looked, fromRow, rfl⟩ := Reading.bind_eq_ok_iff.mp fromSchema
  obtain ⟨_, _, later, visited, onward, rfl⟩ := Reading.bind_eq_ok_iff.mp fromRow
  obtain ⟨known, rfl⟩ := Reading.ofStore_eq_ok_iff.mp asked
  obtain ⟨present, rfl⟩ := Reading.ofStore_eq_ok_iff.mp looked
  obtain rfl := Reading.visit_eq_ok_iff.mp visited
  refine ⟨schema, row, known, present, ?_⟩
  split at onward
  · next own =>
      have none : later = [] := by
        rw [← rowIds_ownValue row, onward]
      exact .inl ⟨own, by rw [none]; rfl⟩
  · next other =>
      refine .inr ⟨other, ?_⟩
      split at onward
      · simp [Reading.fail] at onward
      · next rel follows =>
          obtain ⟨related, _, _, reached, checked, rfl⟩ := Reading.bind_eq_ok_iff.mp onward
          obtain ⟨-, rfl⟩ := Reading.ofStore_eq_ok_iff.mp reached
          split at checked
          · simp [Reading.fail] at checked
          · obtain ⟨rows, _, _, followed, values, rfl⟩ := Reading.bind_eq_ok_iff.mp checked
            obtain ⟨leads, rfl⟩ := Reading.ofStore_eq_ok_iff.mp followed
            refine ⟨rel, follows, rows, leads, ?_⟩
            rw [rowIds_of_relatedValue values]
            rfl

/-- A path that is resolved has read the rows that it should. -/
theorem rowsRead_of_resolve {answer : Option Value}
    (found : (r.resolve path bindings).outcome = .ok answer)
    : r.RowsRead bindings path (r.resolve path bindings).rowIds := by
  by_cases started
    : ∃ schema row target property function,
        r.StartsFrom bindings path schema row target property function
  · obtain ⟨schema, row, target, property, function, starts⟩ := started
    obtain ⟨binding, entity, item, segments, free, bound, known, present⟩ := id starts
    rw [resolve_of_row segments free bound, Reading.outcome_map] at found
    rw [resolve_of_row segments free bound, Reading.rowIds_map]
    obtain ⟨v, succeeded, -⟩ := Except.map_eq_ok_iff.mp found
    generalize onRow : r.resolveOnRow path entity item target property function = reading
      at succeeded
    obtain ⟨_, ids⟩ := reading
    obtain rfl : _ = Except.ok v := succeeded
    obtain ⟨start, first, knownToo, presentToo, kind⟩ := rowIds_of_resolveOnRow onRow
    obtain rfl := Except.ok.inj (known.symm.trans knownToo)
    obtain rfl := Except.ok.inj (present.symm.trans presentToo)
    rcases kind with ⟨own, rfl⟩ | ⟨other, rel, follows, rows, leads, rfl⟩
    · exact .own starts own
    · exact .related starts other follows leads
  · have none : (r.resolve path bindings).rowIds = [] := by
      apply List.eq_nil_iff_forall_not_mem.mpr
      intro id listed
      cases mem_rowIds_resolve.mp listed with
      | bound starts => exact started ⟨_, _, _, _, _, starts⟩
      | related starts => exact started ⟨_, _, _, _, _, starts⟩
    rw [none]
    exact .none fun schema row target property function starts =>
      started ⟨schema, row, target, property, function, starts⟩

/-- The values of paths are those that the paths have one by one. -/
theorem resolvePaths_outcome (r : VariableResolver) (paths : List String)
    (bindings : VariableBindings)
    : (r.resolvePaths paths bindings).outcome
      = (paths.mapM fun path =>
            (r.resolve path bindings).outcome.map fun v => v.map (path, ·)).map
          fun found => .ofList (found.filterMap id) := by
  simp only [resolvePaths_eq, Reading.outcome_bind, Reading.outcome_forEach, Reading.outcome_pure]
  rfl

/-- A path has a value in the table of all exactly when it is one of them and has that value. -/
theorem get?_of_resolvePaths {paths : List String} {values : Table String Value}
    (resolved : (r.resolvePaths paths bindings).outcome = .ok values) {v : Value}
    : values.get? path = some v
      ↔ path ∈ paths ∧ (r.resolve path bindings).outcome = .ok (some v) := by
  rw [resolvePaths_outcome] at resolved
  obtain ⟨found, each, rfl⟩ := Except.map_eq_ok_iff.mp resolved
  have listed (path : String) (v : Value)
      : (path, v) ∈ found.filterMap id
        ↔ path ∈ paths ∧ (r.resolve path bindings).outcome = .ok (some v) := by
    have outcomes := Except.mapM_eq_ok_iff.mp each
    have member : (path, v) ∈ found.filterMap id
        ↔ (.ok (some (path, v)) : Except ResolutionError _) ∈ found.map .ok := by
      simp
    rw [member, ← outcomes, List.mem_map]
    constructor
    · rintro ⟨other, among, same⟩
      obtain ⟨answer, succeeded, entry⟩ := Except.map_eq_ok_iff.mp same
      obtain ⟨w, rfl, pair⟩ := Option.map_eq_some_iff.mp entry
      obtain ⟨rfl, rfl⟩ := Prod.mk.inj pair
      exact ⟨among, succeeded⟩
    · rintro ⟨among, succeeded⟩
      exact ⟨path, among, by rw [succeeded]; rfl⟩
  rw [Table.get?_ofList_eq_some_iff, listed]
  intro k v w first second
  have one := ((listed k v).mp first).2
  have two := ((listed k w).mp second).2
  simpa using one.symm.trans two

/-- Of paths that are all resolved each one alone gives what the table of all has for it. -/
theorem resolve_of_resolvePaths {paths : List String} {values : Table String Value}
    (resolved : (r.resolvePaths paths bindings).outcome = .ok values) (listed : path ∈ paths)
    : (r.resolve path bindings).outcome = .ok (values.get? path) := by
  obtain ⟨found, each, -⟩ :=
    Except.map_eq_ok_iff.mp ((resolvePaths_outcome r paths bindings).symm.trans resolved)
  have member := List.mem_map_of_mem (f := fun path =>
    (r.resolve path bindings).outcome.map fun v => v.map (path, ·)) listed
  rw [Except.mapM_eq_ok_iff.mp each] at member
  obtain ⟨entry, -, succeeded⟩ := List.mem_map.mp member
  obtain ⟨answer, answered⟩ := Except.exists_map_eq_ok_iff.mp ⟨entry, succeeded.symm⟩
  rw [answered]
  cases answer with
  | some v => rw [(get?_of_resolvePaths resolved).mpr ⟨listed, answered⟩]
  | none =>
      cases held : values.get? path with
      | none => rfl
      | some v => simpa [answered] using ((get?_of_resolvePaths resolved).mp held).2

/-- Paths fail for the reason of the first of them that does. -/
theorem resolvePaths_eq_error_iff {paths : List String} {cause : ResolutionError}
    : (r.resolvePaths paths bindings).outcome = .error cause
      ↔ ∃ before path after,
          paths = before ++ path :: after
          ∧ (∀ earlier ∈ before, ∃ v, (r.resolve earlier bindings).outcome = .ok v)
          ∧ (r.resolve path bindings).outcome = .error cause := by
  rw [resolvePaths_outcome, Except.map_eq_error_iff, Except.mapM_eq_error_iff]
  simp only [Except.map_eq_error_iff, Except.exists_map_eq_ok_iff]

/-- Paths that are all resolved have read what each of them has, in turn. -/
theorem rowIds_of_resolvePaths {paths : List String} {values : Table String Value}
    {ids : List String} (read : r.resolvePaths paths bindings = ⟨.ok values, ids⟩)
    : ids = paths.flatMap fun path => (r.resolve path bindings).rowIds := by
  rw [resolvePaths_eq] at read
  obtain ⟨found, early, late, each, done, rfl⟩ := Reading.bind_eq_ok_iff.mp read
  have none : late = [] := (congrArg Reading.rowIds done).symm
  rw [none, List.append_nil, Reading.rowIds_of_forEach each]
  exact congrArg (List.flatMap · paths) (funext fun path => Reading.rowIds_map ..)

theorem resolveAll_eq_error_iff {f : Formula} {cause : ResolutionError}
    : r.resolveAll f bindings = .error cause
      ↔ ∃ before path after,
          f.variablePaths = before ++ path :: after
          ∧ (∀ earlier ∈ before, ∃ v, (r.resolve earlier bindings).outcome = .ok v)
          ∧ (r.resolve path bindings).outcome = .error cause := by
  rw [resolveAll, Reading.resolved, Except.map_eq_error_iff, resolvePaths_eq_error_iff]

end VariableResolver

open VariableResolver in
/-- Resolving all variables of a formula agrees with resolving its paths one by one. The paths are
those of its variables, each once and in the order in which they first occur. The whole fails
exactly when one of them does, for the reason of the first that does. Otherwise the values that are
found are the values that the paths have, of which one that is not bound has none, and the rows
that are noted are those that the paths have read in turn, each once and in the order in which they
were first read.
-/
theorem resolveAll_path_by_path (r : VariableResolver) (f : Formula)
    (bindings : VariableBindings)
    : let paths := f.variablePaths
      let outcome (path : String) := (r.resolve path bindings).outcome
      let rowIds (path : String) := (r.resolve path bindings).rowIds
      paths.Nodup
      ∧ (∀ path, path ∈ paths ↔ ∃ c ∈ f.components, c.path? = some path)
      ∧ paths.Pairwise f.OccursBefore
      ∧ ((∃ cause, r.resolveAll f bindings = .error cause)
        ↔ ∃ path ∈ paths, ∃ cause, outcome path = .error cause)
      ∧ (∀ cause,
          r.resolveAll f bindings = .error cause
          ↔ ∃ before path after,
              paths = before ++ path :: after
              ∧ (∀ earlier ∈ before, ∃ v, outcome earlier = .ok v)
              ∧ outcome path = .error cause)
      ∧ ∀ found,
          r.resolveAll f bindings = .ok found
          → (∀ path ∈ paths, outcome path = .ok (found.values.get? path))
            ∧ (∀ path, path ∉ paths → found.values.get? path = none)
            ∧ (∀ path ∈ paths, r.RowsRead bindings path (rowIds path))
            ∧ FirstOccurrences (paths.flatMap rowIds) found.rowIds := by
  intro paths outcome rowIds
  refine ⟨f.nodup_variablePaths, fun _ => Formula.mem_variablePaths_iff, f.variablePaths_inOrder,
    ?_, fun _ => resolveAll_eq_error_iff, ?_⟩
  · constructor
    · rintro ⟨cause, failed⟩
      obtain ⟨before, path, after, split, -, failing⟩ := resolveAll_eq_error_iff.mp failed
      have listed : path ∈ f.variablePaths := by simp [split]
      exact ⟨path, listed, cause, failing⟩
    · rintro ⟨path, listed, cause, failing⟩
      cases all : r.resolveAll f bindings with
      | error first => exact ⟨first, rfl⟩
      | ok found =>
          obtain ⟨values, resolved, -⟩ := Except.map_eq_ok_iff.mp all
          have succeeded := resolve_of_resolvePaths resolved listed
          simp [outcome, succeeded] at failing
  · intro found all
    obtain ⟨values, resolved, rfl⟩ := Except.map_eq_ok_iff.mp all
    refine ⟨fun path listed => resolve_of_resolvePaths resolved listed, ?_, ?_, ?_⟩
    · intro path unlisted
      apply Option.eq_none_iff_forall_ne_some.mpr
      intro v held
      exact unlisted ((get?_of_resolvePaths resolved).mp held).1
    · intro path listed
      exact rowsRead_of_resolve (resolve_of_resolvePaths resolved listed)
    · have read : r.resolvePaths paths bindings
          = ⟨.ok values, (r.resolvePaths paths bindings).rowIds⟩ := by rw [← resolved]
      rw [← rowIds_of_resolvePaths read]
      exact firstOccurrences_eraseDups _

open VariableResolver in
/-- An invoice with two lines. Its variables are stored out of order, one of them twice, and a
third one is not bound. Both variables that are bound read the invoice, which is noted once.
-/
theorem resolveAll_path_by_path_invoice
    : let s : RowStore :=
        (((({} : RowStore).insertRow "invoice" "i" 3).insertRow "line" "a" 1).insertRow
          "line" "b" 2)
        |>.relate "invoice" "i" "lines" ("line", "a")
        |>.relate "invoice" "i" "lines" ("line", "b")
      let r : VariableResolver :=
        { catalog := .ofSchemas [
            { name := "invoice", relationships := [⟨"lines", "line", .child⟩] },
            { name := "line" }]
          rows := { store := s }
          resultAs := .number }
      let f : Formula :=
        { id := "f", components := [
            ⟨2, .operand (.var "row.line.order.first")⟩,
            ⟨1, .operator .add⟩,
            ⟨4, .operand (.var "row.invoice.order")⟩,
            ⟨3, .operator .add⟩,
            ⟨0, .operand (.var "row.invoice.order")⟩,
            ⟨5, .operator .add⟩,
            ⟨6, .operand (.var "discount")⟩] }
      let bindings := VariableBindings.ofRow "invoice" "i"
      let found : ResolvedValues :=
        { values := .ofList [("row.invoice.order", .number 3), ("row.line.order.first", .number 1)]
          rowIds := ["i", "a", "b"] }
      f.variablePaths = ["row.invoice.order", "row.line.order.first", "discount"]
      ∧ r.resolveAll f bindings = .ok found
      ∧ (r.resolve "discount" bindings).outcome = .ok none
      ∧ r.RowsRead bindings "row.line.order.first" ["i", "a", "b"]
      ∧ FirstOccurrences ["i", "i", "a", "b"] found.rowIds := by
  intro s r f bindings found
  have paths : f.variablePaths = ["row.invoice.order", "row.line.order.first", "discount"] := by
    cbv
  have own : r.resolve "row.invoice.order" bindings = ⟨.ok (some (.number 3)), ["i"]⟩ := by
    have segments : (pathSegments "row.invoice.order".toList).map String.ofList
        = "row" :: "invoice" :: "order" :: (none : Option String).toList := by decide
    rw [resolve_of_row segments (by decide) (Table.get?_insert ..)]
    cbv
  have lines : r.resolve "row.line.order.first" bindings
      = ⟨.ok (some (.number 1)), ["i", "a", "b"]⟩ := by
    have segments : (pathSegments "row.line.order.first".toList).map String.ofList
        = "row" :: "line" :: "order" :: (some "first").toList := by decide
    rw [resolve_of_row segments (by decide) (Table.get?_insert ..)]
    cbv
  have discount : r.resolve "discount" bindings = ⟨.ok none, []⟩ := by
    have segments : (pathSegments "discount".toList).map String.ofList = ["discount"] := by decide
    exact resolve_of_unbound segments (by simp) rfl
  have resolved : r.resolveAll f bindings = .ok found := by
    simp only [resolveAll_eq, paths, Reading.forEach, own, lines, discount]
    cbv
  obtain ⟨-, -, -, -, -, agrees⟩ := resolveAll_path_by_path r f bindings
  obtain ⟨-, -, read, once⟩ := agrees found resolved
  have linesRead := read "row.line.order.first" (by rw [paths]; simp)
  simp only [paths, List.flatMap_cons, List.flatMap_nil, own, lines, discount] at once
  simp only [lines] at linesRead
  exact ⟨paths, resolved, by rw [discount], linesRead, once⟩

end RowFormula
