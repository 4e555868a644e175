import Mathlib
import RowFormula.Proofs.Log.Recording
import RowFormula.Proofs.Variable.Visits

/-! Finding log entries by the rows that were read. An entry lists the rows that were read for
its variables if all of them were resolved, whatever became of the evaluation, and none
otherwise, although rows may have been read before the failure.
-/

namespace RowFormula

theorem ExecutionLog.mem_touchingRow_iff {log : ExecutionLog} {entry : LogEntry}
    {rowId : String}
    : entry ∈ log.touchingRow rowId ↔ entry ∈ log.entries ∧ rowId ∈ entry.entry.rowIds := by
  simp [touchingRow]

/-- What is recorded of the variables of a formula are the rows that were read for them. -/
theorem VariableResolver.mem_rowIds_resolveAll {r : VariableResolver} {f : Formula}
    {bindings : VariableBindings} {found : ResolvedValues} {rowId : String}
    (resolved : r.resolveAll f bindings = .ok found)
    : rowId ∈ found.rowIds ↔ r.PathsRead f.variablePaths bindings rowId := by
  obtain ⟨values, -, rfl⟩ := Except.map_eq_ok_iff.mp resolved
  exact List.mem_eraseDups.trans mem_rowIds_resolvePaths

namespace Engine

theorem rowIds_loggedEntry (e : Engine) (request : CalculationRequest)
    (resolved : Except ResolutionError VariableResolver.ResolvedValues) (id : Nat)
    : (e.loggedEntry request resolved id).entry.rowIds
      = (traceOf request.formula resolved).rowIds := by
  simp only [loggedEntry]
  split <;> rfl

/-- A trace lists the rows that were read for its variables, or none when one of them could not
be resolved.
-/
theorem mem_rowIds_traceOf (e : Engine) (request : CalculationRequest) (rows : RowStore)
    (rowId : String)
    : rowId ∈ (traceOf request.formula (e.resolved request rows)).rowIds
      ↔ (∃ found, e.resolved request rows = .ok found)
        ∧ (e.resolver request.formula rows).PathsRead request.formula.variablePaths
            request.bindings rowId := by
  cases resolved : e.resolved request rows with
  | error cause => simp [traceOf, ExpressionTrace.build]
  | ok found =>
      simp only [Except.ok.injEq, exists_eq', true_and]
      exact VariableResolver.mem_rowIds_resolveAll resolved

/-- The entry of a recorded evaluation is found by exactly the rows that were read for its
variables if all of them are resolved, and by no row otherwise. It does not matter whether the
evaluation then succeeds.
-/
theorem entry_found_by_rows_read (e : Engine) (request : CalculationRequest) (s : EngineState)
    (working : e.logAccess = .working) (withLogs : request.formula.withLogs = true)
    (final : request.debug = false)
    : let after := (e.calculate request s).2
      let r := e.resolver request.formula s.rows
      ∃ entry,
        after.entries = s.log.entries ++ [entry]
        ∧ entry.id = s.log.entries.length + 1
        ∧ ∀ rowId,
            entry ∈ after.touchingRow rowId
            ↔ (∃ found, r.resolveAll request.formula request.bindings = .ok found)
              ∧ r.PathsRead request.formula.variablePaths request.bindings rowId := by
  intro after r
  have recorded : (e.records request && e.logAccess ≠ .createFails) = true := by
    simp [records, working, withLogs, final]
  have added := e.calculate_log request s
  rw [logged, if_pos recorded] at added
  refine ⟨_, added, ?_, fun rowId => ?_⟩
  · simp [loggedEntry, working, LogEntry.completed]
  · rw [ExecutionLog.mem_touchingRow_iff, rowIds_loggedEntry, mem_rowIds_traceOf, added]
    exact and_iff_right (List.mem_append_right _ List.mem_cons_self)

/-- The order of a task is read for a formula that is then found to be malformed. -/
theorem entry_found_by_rows_read_malformed
    : let e : Engine :=
        { catalog := .ofSchemas [{ name := "task" }], logAccess := .working }
      let f : Formula :=
        { id := "f", withLogs := true, components := [
            ⟨0, .operand (.var "row.task.order")⟩, ⟨1, .operator .add⟩] }
      let request : CalculationRequest := { formula := f, bindings := .ofRow "task" "t" }
      let s : EngineState := { rows := ({} : RowStore).insertRow "task" "t" 3 }
      let after := (e.calculate request s).2
      e.logAccess = .working
      ∧ f.withLogs = true
      ∧ request.debug = false
      ∧ valueOf f (e.resolved request s.rows) = .error (.malformed (.danglingOperator .add))
      ∧ ∃ entry, after.entries = [entry] ∧ entry ∈ after.touchingRow "t" := by
  intro e f request s after
  have paths : f.variablePaths = ["row.task.order"] := by cbv
  have segments : (pathSegments "row.task.order".toList).map String.ofList
      = "row" :: "task" :: "order" :: (none : Option String).toList := by decide
  have order : (e.resolver f s.rows).resolve "row.task.order" request.bindings
      = ⟨.ok (some (.number 3)), ["t"]⟩ := by
    rw [VariableResolver.resolve_of_row segments (by decide) (Table.get?_insert ..)]
    cbv
  have resolved : e.resolved request s.rows
      = .ok { values := .ofList [("row.task.order", .number 3)], rowIds := ["t"] } := by
    simp only [Engine.resolved, VariableResolver.resolveAll_eq,
      show request.formula = f from rfl, paths, Reading.forEach, order]
    cbv
  have read : (e.resolver f s.rows).PathsRead f.variablePaths request.bindings "t" :=
    (VariableResolver.mem_rowIds_resolveAll resolved).mp List.mem_cons_self
  obtain ⟨entry, added, -, found⟩ :=
    entry_found_by_rows_read e request s rfl rfl rfl
  refine ⟨rfl, rfl, rfl, ?_, entry, added, ?_⟩
  · rw [resolved]
    cbv
  · exact (found "t").mpr ⟨⟨_, resolved⟩, read⟩

/-- A task is read for a formula's first variable before the second one fails: the entry of the
failed evaluation is not found by the task.
-/
theorem entry_not_found_by_row_read
    : let e : Engine :=
        { catalog := .ofSchemas [{ name := "task", properties := [{ name := "size" }] }]
          logAccess := .working }
      let f : Formula :=
        { id := "f", withLogs := true, components := [
            ⟨0, .operand (.var "row.task.size")⟩,
            ⟨1, .operator .add⟩,
            ⟨2, .operand (.var "row.task.missing")⟩] }
      let request : CalculationRequest := { formula := f, bindings := .ofRow "task" "t" }
      let s : EngineState := { rows := ({} : RowStore).insertRow "task" "t" 0 }
      let after := (e.calculate request s).2
      (e.resolver f s.rows).PathsRead f.variablePaths request.bindings "t"
      ∧ ∃ entry, after.entries = [entry] ∧ entry ∉ after.touchingRow "t" := by
  intro e f request s after
  have paths : f.variablePaths = ["row.task.size", "row.task.missing"] := by cbv
  have sizeSegments : (pathSegments "row.task.size".toList).map String.ofList
      = "row" :: "task" :: "size" :: (none : Option String).toList := by decide
  have missingSegments : (pathSegments "row.task.missing".toList).map String.ofList
      = "row" :: "task" :: "missing" :: (none : Option String).toList := by decide
  have size : (e.resolver f s.rows).resolve "row.task.size" request.bindings
      = ⟨.ok (some .null), ["t"]⟩ := by
    rw [VariableResolver.resolve_of_row sizeSegments (by decide) (Table.get?_insert ..)]
    cbv
  have missing : (e.resolver f s.rows).resolve "row.task.missing" request.bindings
      = ⟨.error (.unknownProperty "task" "missing"), ["t"]⟩ := by
    rw [VariableResolver.resolve_of_row missingSegments (by decide) (Table.get?_insert ..)]
    cbv
  have unresolved : e.resolved request s.rows = .error (.unknownProperty "task" "missing") := by
    simp only [Engine.resolved, VariableResolver.resolveAll_eq,
      show request.formula = f from rfl, paths, Reading.forEach, size, missing]
    cbv
  have read : (e.resolver f s.rows).PathReads request.bindings "row.task.size" "t" :=
    VariableResolver.mem_rowIds_resolve.mp (by rw [size]; exact List.mem_cons_self)
  refine ⟨⟨[], "row.task.size", ["row.task.missing"], paths, by simp, read⟩, _,
    e.calculate_log request s, fun found => ?_⟩
  rw [ExecutionLog.mem_touchingRow_iff, rowIds_loggedEntry, mem_rowIds_traceOf, unresolved]
    at found
  simp at found

end Engine

end RowFormula
