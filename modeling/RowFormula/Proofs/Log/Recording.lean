import RowFormula.Proofs.Engine.Running

/-! What a calculation leaves in the log: nothing, or one entry after those that were there.
Entries have distinct ids, so that the entry that is completed is the one that was just created.
-/

namespace RowFormula

namespace LogEntry

/-- An entry that is completed if it has the id. -/
def completedAt (id : Nat) (c : LogCompletion) (e : LogEntry) : LogEntry :=
  if e.id = id then e.completed c else e

theorem completedAt_of_ne {id : Nat} {e : LogEntry} (other : e.id ≠ id) (c : LogCompletion)
    : e.completedAt id c = e :=
  if_neg other

theorem map_completedAt_of_ne {id : Nat} {entries : List LogEntry}
    (others : ∀ e ∈ entries, e.id ≠ id) (c : LogCompletion)
    : entries.map (·.completedAt id c) = entries := by
  calc entries.map (·.completedAt id c)
    _ = entries.map fun e => e :=
          List.map_congr_left fun e member => completedAt_of_ne (others e member) c
    _ = entries := List.map_id' entries

end LogEntry

namespace ExecutionLog

theorem id_ne_next {log : ExecutionLog} {entry : LogEntry} (member : entry ∈ log.entries)
    : entry.id ≠ log.entries.length + 1 := by
  have listed : entry.id ∈ log.entries.map (·.id) := List.mem_map_of_mem member
  rw [log.numbered, List.mem_range'_1] at listed
  omega

/-- Where ids are distinct, completing the first entry with an id completes the entry with it, by
induction on the entries.
-/
theorem completeFirst_eq_map {id : Nat} {entries : List LogEntry}
    (distinct : (entries.map (·.id)).Nodup) (c : LogCompletion)
    : completeFirst id c entries = entries.map (·.completedAt id c) := by
  induction entries with
  | nil => rfl
  | cons e rest ih =>
      obtain ⟨apart, later⟩ := List.nodup_cons.mp distinct
      rw [completeFirst, List.map_cons]
      by_cases same : e.id = id
      · have others : ∀ other ∈ rest, other.id ≠ id := by
          intro other member equal
          exact apart (List.mem_map.mpr ⟨other, member, equal.trans same.symm⟩)
        rw [if_pos same, LogEntry.map_completedAt_of_ne others, LogEntry.completedAt, if_pos same]
      · rw [if_neg same, LogEntry.completedAt_of_ne same, ih later]

/-- Completing an entry leaves all others alone. -/
theorem entries_complete (log : ExecutionLog) (id : Nat) (c : LogCompletion)
    : (log.complete id c).entries = log.entries.map (·.completedAt id c) := by
  apply completeFirst_eq_map
  rw [log.numbered]
  exact List.nodup_range'

theorem update_eq_error_iff {log : ExecutionLog} {id : Nat} {c : LogCompletion}
    {cause : EntryNotFound}
    : log.update id c = .error cause ↔ (∀ e ∈ log.entries, e.id ≠ id) ∧ cause = ⟨id⟩ := by
  rw [update]
  split
  · next listed =>
      obtain ⟨e, member, same⟩ := List.any_eq_true.mp listed
      refine iff_of_false (nomatch ·) ?_
      rintro ⟨absent, -⟩
      exact absent e member (eq_of_beq same)
  · next unlisted =>
      have absent : ∀ e ∈ log.entries, e.id ≠ id := by simpa using unlisted
      rw [Except.error.injEq, eq_comm, and_iff_right absent]

/-- An update that succeeds completes the entry. -/
theorem update_eq_ok {log after : ExecutionLog} {id : Nat} {c : LogCompletion}
    (made : log.update id c = .ok after)
    : after = log.complete id c := by
  rw [update] at made
  split at made
  · exact (Except.ok.inj made).symm
  · cases made

end ExecutionLog

namespace Engine

def completion (e : Engine) : Except CalculationError Value → LogCompletion
  | .ok v => { duration := e.elapsed, result := some v, error := none }
  | .error cause => { duration := e.elapsed, result := none, error := some cause.message }

/-- The entry that an evaluation leaves under an id, completed if the log allows it. -/
def loggedEntry (e : Engine) (request : CalculationRequest)
    (resolved : Except ResolutionError VariableResolver.ResolvedValues) (id : Nat)
    : LogEntry :=
  let trace := traceOf request.formula resolved
  let created : LogEntry := {
    id
    entry := {
      formulaId := request.formula.id
      context := request.context
      expression := trace.text e.config.unsetDisplay
      components := request.formula.components
      rowIds := trace.rowIds } }
  if e.logAccess = .working then
    created.completed (e.completion (valueOf request.formula resolved))
  else created

/-- The entries that an evaluation leaves in a log of which it gets the next id. -/
def logged (e : Engine) (request : CalculationRequest)
    (resolved : Except ResolutionError VariableResolver.ResolvedValues) (id : Nat)
    : List LogEntry :=
  if e.records request && e.logAccess ≠ .createFails then
    [e.loggedEntry request resolved id]
  else []

/-- The variables of a request, resolved against a store. -/
def resolved (e : Engine) (request : CalculationRequest) (rows : RowStore)
    : Except ResolutionError VariableResolver.ResolvedValues :=
  (e.resolver request.formula rows).resolveAll request.formula request.bindings

/-- The value that a calculation gives is that of the resolved variables. -/
theorem calculate_value (e : Engine) (request : CalculationRequest) (s : EngineState)
    : (e.calculate request s).1.map (·.value)
      = valueOf request.formula (e.resolved request s.rows) := by
  simp only [calculate, run_calculation, resolved]
  cases valueOf request.formula _ <;> rfl

/-- What a calculation answers is determined by the resolved variables, but for the id of its
log entry: the next one of the log, if an entry was created.
-/
theorem calculate_answer (e : Engine) (request : CalculationRequest) (s : EngineState)
    : let trace := traceOf request.formula (e.resolved request s.rows)
      (e.calculate request s).1
      = (valueOf request.formula (e.resolved request s.rows)).map fun value =>
          { value
            expression := trace.text e.config.unsetDisplay
            rowIds := trace.rowIds
            logId :=
              if e.records request && e.logAccess ≠ .createFails then
                some (s.log.entries.length + 1)
              else none } := by
  simp only [calculate, run_calculation, beginEntry, ExecutionLog.create, resolved]
  split <;> rfl

/-- Stores that resolve the variables alike give the same calculation. -/
theorem calculate_congr {e : Engine} {request : CalculationRequest} {s t : RowStore}
    (same : e.resolved request s = e.resolved request t) (log : ExecutionLog)
    : e.calculate request ⟨s, log⟩ = e.calculate request ⟨t, log⟩ := by
  simp only [resolved] at same
  simp only [calculate, run_calculation, same]

/-- The entry that was created last is the one that is completed. -/
theorem completeEntry_create (e : Engine) (log : ExecutionLog) (entry : NewLogEntry)
    (outcome : Except CalculationError Value)
    : let created : LogEntry := { id := log.entries.length + 1, entry }
      (e.completeEntry (some (log.create entry).1) outcome (log.create entry).2).entries
      = log.entries
        ++ [if e.logAccess = .working then created.completed (e.completion outcome)
            else created] := by
  intro created
  have entries : (log.create entry).2.entries = log.entries ++ [created] := rfl
  by_cases working : e.logAccess = .working
  · have listed : (log.create entry).2.entries.any (·.id == (log.create entry).1) = true := by
      simp [ExecutionLog.create]
    have others : ∀ other ∈ log.entries, other.id ≠ (log.create entry).1 :=
      fun other => ExecutionLog.id_ne_next
    have completed
        : ((log.create entry).2.complete (log.create entry).1 (e.completion outcome)).entries
          = log.entries ++ [created.completed (e.completion outcome)] := by
      rw [ExecutionLog.entries_complete, entries, List.map_append,
        LogEntry.map_completedAt_of_ne others]
      exact congrArg (log.entries ++ [·]) (if_pos rfl)
    rw [if_pos working, ← completed]
    cases outcome <;>
      simp only [completeEntry, working, ExecutionLog.update, listed, if_true, completion]
  · simp [completeEntry, working, entries]

/-- A calculation adds its entry, if it leaves one, behind those of the log. -/
theorem calculate_log (e : Engine) (request : CalculationRequest) (s : EngineState)
    : (e.calculate request s).2.entries
      = s.log.entries
        ++ e.logged request (e.resolved request s.rows) (s.log.entries.length + 1) := by
  simp only [calculate, run_calculation, beginEntry, logged]
  by_cases recorded : (e.records request && e.logAccess ≠ .createFails) = true
  · simp only [recorded, if_true]
    rw [e.completeEntry_create]
    rfl
  · simp only [recorded, if_false, List.append_nil, Bool.false_eq_true]
    rfl

end Engine

end RowFormula
