import Mathlib
import RowFormula.Proofs.Log.Recording
import RowFormula.Proofs.Rows.Writes
import RowFormula.Proofs.Trigger.Step
import RowFormula.Proofs.Value.Casting

/-! What one trigger run does to the rows: the report lists every pair once and in order,
and the values that it reports as written are the records that the journal gains and that
the stored values are changed by. Nothing else is written.
-/

namespace RowFormula

namespace Engine

def recordOf (entity : String) (p : Pair) (status : PairStatus) : Option WriteRecord :=
  status.value?.map fun v => ⟨entity, p.row, p.property.name, p.formula.resultAs.toSlots v⟩

/-- The records of the pairs that were written, in the order of the report. -/
def writeRecords (entity : String) (ps : List Pair) (outcomes : List PairOutcome)
    : List WriteRecord :=
  (ps.zip outcomes).filterMap fun (p, outcome) => recordOf entity p outcome.status

/-- The last value that a report gives for a property of a row. -/
def lastWritten (outcomes : List PairOutcome) (property row : String) : Option Value :=
  (outcomes.filterMap fun o =>
    if o.property = property ∧ o.row = row then o.status.value? else none).getLast?

/-- The outcome of a pair that is processed while the store holds some rows: it is skipped
when its trigger is neither the event nor `ALWAYS`, unless it is to be filled when unset
and its value is null; a value that is needed and cannot be read fails the pair.
-/
structure OutcomeRule (e : Engine) (event : LifecycleEvent) (entity : String)
    (rows : RowStore) (p : Pair) (outcome : PairOutcome)
    : Prop where
  skipped
    : outcome.status = .skipped
      ↔ (p.formula.trigger ≠ event.trigger ∧ p.formula.trigger ≠ .always)
        ∧ (p.formula.trigger ≠ .ifUnset
          ∨ ∃ v, e.storedValue entity p rows = .ok v ∧ v ≠ .null)
  unread
    : ∀ cause,
        p.formula.trigger = .ifUnset
        → e.storedValue entity p rows = .error cause
        → outcome.status = .failed (TriggerError.store cause).message

-----------------------------------------------------------------------------------------
-- One step
-----------------------------------------------------------------------------------------

section

variable {e : Engine} {event : LifecycleEvent} {entity : String} {p : Pair}
  {s after : EngineState} {status : PairStatus}

/-- The value of a calculation has the type of its formula. -/
theorem calculate_cast {request : CalculationRequest} {result : EndResult}
    {log : ExecutionLog} (calculated : e.calculate request s = (.ok result, log))
    : ∃ raw, result.value = request.formula.resultAs.cast raw := by
  have value := e.calculate_value request s
  rw [calculated] at value
  unfold valueOf at value
  split at value
  · next r _ =>
      cases evaluated : request.formula.evaluate r.values.get? with
      | error cause => simp [evaluated, Except.map] at value
      | ok v =>
          simp only [evaluated, Except.map, Except.mapError_ok, Except.ok.injEq] at value
          obtain ⟨nodes, _, cast⟩ := Except.bind_eq_ok_iff.mp evaluated
          obtain ⟨raw, _, rfl⟩ := Except.map_eq_ok_iff.mp cast
          exact ⟨raw, value⟩
  · simp [Except.map] at value

/-- A step writes the record of its status to the rows, if it has one. -/
theorem PairStep.write (step : e.PairStep event entity p s status after)
    : (recordOf entity p status = none ∧ after.rows = s.rows)
      ∨ ∃ v,
          status.value? = some v
          ∧ s.rows.writeProperty entity p.row p.property.name (p.formula.resultAs.toSlots v)
            = .ok after.rows
          ∧ (p.formula.resultAs.toSlots v).toValue = v := by
  cases step with
  | unread | skipped | uncalculated | unwritten => exact .inl ⟨rfl, rfl⟩
  | written decided calculated stored =>
      obtain ⟨raw, cast⟩ := calculate_cast calculated
      refine .inr ⟨_, rfl, (RowAccess.guarded_eq_ok_iff.mp stored).2, ?_⟩
      rw [cast]
      exact p.formula.resultAs.toValue_toSlots_cast raw

/-- A step follows the rule for the rows that it finds. -/
theorem PairStep.rule (step : e.PairStep event entity p s status after)
    : e.OutcomeRule event entity s.rows p ⟨p.property.name, p.row, status⟩ := by
  have skip : e.decision event entity p s.rows = .ok .skip ↔ _ :=
    TriggerDecision.decide_eq_skip_iff
  have fail {cause} : e.decision event entity p s.rows = .error cause ↔ _ :=
    TriggerDecision.decide_eq_error_iff
  constructor
  · rw [← skip]
    cases step with
    | skipped decided => exact iff_of_true rfl decided
    | unread decided | uncalculated decided | unwritten decided | written decided =>
        simp [decided]
  · intro cause fills unread
    have failed := fail.mpr ⟨fills, unread⟩
    cases step with
    | unread decided => rw [Except.error.inj (decided.symm.trans failed)]
    | skipped decided | uncalculated decided | unwritten decided | written decided =>
        exact nomatch decided.symm.trans failed

end

-----------------------------------------------------------------------------------------
-- The whole run
-----------------------------------------------------------------------------------------

section

variable {e : Engine} {event : LifecycleEvent} {entity : String} {ps : List Pair}
  {s after : EngineState} {outcomes : List PairOutcome}

/-- A report has one outcome for each pair, in the order of the pairs. -/
theorem PairRun.reported (run : e.PairRun event entity ps s outcomes after)
    : outcomes.map (fun o => (o.property, o.row))
      = ps.map fun p => (p.property.name, p.row) := by
  induction run with
  | nil => rfl
  | cons _ _ ih => simp [ih]

theorem writeRecords_cons (entity : String) (p : Pair) (rest : List Pair)
    (outcome : PairOutcome) (outcomes : List PairOutcome)
    : writeRecords entity (p :: rest) (outcome :: outcomes)
      = (recordOf entity p outcome.status).toList ++ writeRecords entity rest outcomes := by
  cases written : recordOf entity p outcome.status <;> simp [writeRecords, written]

/-- A step leaves the rows on which its record was replayed. -/
theorem PairStep.replay {p : Pair} {status : PairStatus}
    (step : e.PairStep event entity p s status after)
    : after.rows = s.rows.replay (recordOf entity p status).toList
      ∧ after.rows.writes = s.rows.writes ++ (recordOf entity p status).toList := by
  rcases step.write with ⟨unwritten, same⟩ | ⟨v, value, written, _⟩
  · simp [unwritten, same, RowStore.replay]
  · have record : recordOf entity p status
        = some ⟨entity, p.row, p.property.name, p.formula.resultAs.toSlots v⟩ := by
      simp only [recordOf, value, Option.map_some]
    refine ⟨?_, ?_⟩
    · simp [record, RowStore.replay, RowStore.apply, written]
    · simp [record, RowStore.writes_of_write written]

/-- A run leaves the rows on which its records were replayed, and they all went into the
journal, by induction on the run.
-/
theorem PairRun.replay (run : e.PairRun event entity ps s outcomes after)
    : after.rows = s.rows.replay (writeRecords entity ps outcomes)
      ∧ after.rows.writes = s.rows.writes ++ writeRecords entity ps outcomes := by
  induction run with
  | nil s => exact ⟨rfl, (List.append_nil _).symm⟩
  | @cons p rest s status middle outcomes after step others ih =>
      obtain ⟨rows, writes⟩ := step.replay
      rw [writeRecords_cons, RowStore.replay_append, ← List.append_assoc, ← rows, ← writes]
      exact ih

/-- Each pair of a run follows the rule for the rows as the records before it left them, by
induction on the run.
-/
theorem PairRun.rule (run : e.PairRun event entity ps s outcomes after) {k : Nat} {p : Pair}
    {outcome : PairOutcome} (atPair : ps[k]? = some p) (atOutcome : outcomes[k]? = some outcome)
    : e.OutcomeRule event entity
        (s.rows.replay (writeRecords entity (ps.take k) (outcomes.take k))) p outcome := by
  induction run generalizing k with
  | nil => simp at atPair
  | @cons first rest s status middle outcomes after step others ih =>
      cases k with
      | zero =>
          obtain rfl : first = p := by simpa using atPair
          obtain rfl : ⟨first.property.name, first.row, status⟩ = outcome := by
            simpa using atOutcome
          exact step.rule
      | succ k =>
          simp only [List.take_succ_cons, writeRecords_cons, RowStore.replay_append,
            ← step.replay.1]
          exact ih (by simpa using atPair) (by simpa using atOutcome)

theorem lastWritten_cons (first : PairOutcome) (outcomes : List PairOutcome)
    (property row : String)
    : lastWritten (first :: outcomes) property row
      = (lastWritten outcomes property row).or
          (if first.property = property ∧ first.row = row then first.status.value?
            else none) := by
  unfold lastWritten
  cases value : (if first.property = property ∧ first.row = row then first.status.value?
    else none) with
  | none => simp [value]
  | some v =>
      simp only [List.filterMap_cons, value, List.getLast?_cons]
      cases (outcomes.filterMap _).getLast? <;> rfl

/-- A step changes at most the place of its pair. -/
theorem PairStep.agree {p : Pair} {status : PairStatus}
    (step : e.PairStep event entity p s status after)
    : s.rows.AgreeExcept (· = p.place entity) after.rows := by
  rcases step.write with ⟨_, same⟩ | ⟨_, _, written, _⟩
  · exact same ▸ .refl _ _
  · exact RowStore.agree_of_write written

/-- The place of a pair has the value that is reported as written, and otherwise the value
that it had.
-/
theorem PairStep.valueAt {p : Pair} {status : PairStatus}
    (step : e.PairStep event entity p s status after)
    : after.rows.valueAt (p.place entity)
      = (status.value?.map Except.ok).getD (s.rows.valueAt (p.place entity)) := by
  rcases step.write with ⟨unwritten, same⟩ | ⟨v, value, written, kept⟩
  · have none : status.value? = none := by simpa [recordOf] using unwritten
    simp [none, same]
  · have read := RowStore.valueAt_of_write written
    rw [kept] at read
    rw [value]
    exact read

/-- A run changes at most the places of its pairs, by induction on the run. -/
theorem PairRun.agree (run : e.PairRun event entity ps s outcomes after)
    : s.rows.AgreeExcept (fun place => ∃ p ∈ ps, place = p.place entity) after.rows := by
  induction run with
  | nil s => exact .refl _ _
  | @cons p rest s status middle outcomes after step others ih =>
      refine (step.agree.mono ?_).trans (ih.mono ?_)
      · intro place same
        exact ⟨p, List.mem_cons_self, same⟩
      · rintro place ⟨q, member, same⟩
        exact ⟨q, List.mem_cons_of_mem p member, same⟩

/-- After a run a property of a row has the value that was reported for it last, and
otherwise the value that it had, by induction on the run.
-/
theorem PairRun.valueAt (run : e.PairRun event entity ps s outcomes after)
    (property row : String)
    : after.rows.valueAt ⟨entity, row, property⟩
      = ((lastWritten outcomes property row).map Except.ok).getD
          (s.rows.valueAt ⟨entity, row, property⟩) := by
  induction run with
  | nil s => rfl
  | @cons p rest s status middle outcomes after step others ih =>
      rw [ih, lastWritten_cons]
      cases lastWritten outcomes property row with
      | some v => rfl
      | none =>
          simp only [Option.map_none, Option.getD_none, Option.none_or]
          by_cases same : p.property.name = property ∧ p.row = row
          · obtain ⟨rfl, rfl⟩ := same
            rw [if_pos ⟨rfl, rfl⟩]
            exact step.valueAt
          · have elsewhere : (⟨entity, row, property⟩ : Place) ≠ p.place entity := by
              intro equal
              obtain ⟨-, rfl, rfl⟩ := Place.mk.inj equal
              exact same ⟨rfl, rfl⟩
            simpa [same] using (step.agree.value _ elsewhere).symm

end

end Engine

open Engine in
/-- What one trigger run does. Of an unknown entity nothing is reported but an error, and
nothing changes. Otherwise every pair of a computed property and a row has one outcome, in
order, by the rule for the rows as the earlier pairs left them; the journal gains exactly
the records of the pairs reported as written, and the rows are those before the run with
these records replayed. So a property of a row has the value reported for it last, or else
the value that it had.
-/
theorem trigger_run (e : Engine) (event : LifecycleEvent) (entity : String)
    (rows : List String) (s : EngineState)
    : let report := (e.trigger event entity rows s).1
      let after := (e.trigger event entity rows s).2
      match e.catalog.get? entity with
      | none => report.error.isSome ∧ report.outcomes = [] ∧ after = s
      | some schema =>
        let ps := pairs schema rows
        let records := writeRecords schema.name ps report.outcomes
        report.error = none
        ∧ report.outcomes.map (fun o => (o.property, o.row))
          = schema.formulaProperties.flatMap (fun (property, _) =>
              rows.map fun row => (property.name, row))
        ∧ (∀ k p outcome,
            ps[k]? = some p
            → report.outcomes[k]? = some outcome
            → e.OutcomeRule event schema.name
                (s.rows.replay (writeRecords schema.name (ps.take k) (report.outcomes.take k)))
                p outcome)
        ∧ after.rows.writes = s.rows.writes ++ records
        ∧ after.rows = s.rows.replay records
        ∧ (∀ property row,
            after.rows.readProperty schema.name row property
            = ((lastWritten report.outcomes property row).map Except.ok).getD
                (s.rows.readProperty schema.name row property))
        ∧ s.rows.AgreeExcept
            (fun place => ∃ p ∈ ps, place = p.place schema.name) after.rows := by
  simp only [trigger_eq, Catalog.entity]
  cases known : e.catalog.get? entity with
  | none => exact ⟨rfl, rfl, rfl⟩
  | some schema =>
      have run := e.processPairs_run event schema.name (pairs schema rows) s
      refine ⟨rfl, ?_, fun k p outcome => run.rule, run.replay.2, run.replay.1, run.valueAt,
        run.agree⟩
      rw [run.reported, pairs, List.map_flatMap]
      simp only [List.map_map]
      rfl

open Engine in
/-- A property that is filled when unset is written for the first occurrence of a row and
skipped for the second, which finds the value of the first.
-/
theorem trigger_run_fills_once
    : let property : PropertySchema := { name := "done" }
      let formula : Formula :=
        { id := "f", resultAs := .boolean, trigger := .ifUnset,
          components := [⟨0, .operand (.literal (.bool true))⟩] }
      let schema : EntitySchema :=
        { name := "task", properties := [{ property with formula := some formula }] }
      let e : Engine := { catalog := .ofSchemas [schema] }
      let s : EngineState := { rows := ({} : RowStore).insertRow "task" "r" 0 }
      let ps := pairs schema ["r", "r"]
      let report := (e.trigger .afterCreated "task" ["r", "r"] s).1
      e.catalog.get? "task" = some schema
      ∧ report.outcomes[1]? = some ⟨"done", "r", .skipped⟩
      ∧ e.OutcomeRule .afterCreated "task"
          (s.rows.replay (writeRecords "task" (ps.take 1) (report.outcomes.take 1)))
          ⟨{ property with formula := some formula }, formula, "r"⟩
          ⟨"done", "r", .skipped⟩ := by
  intro property formula schema e s ps report
  have second : report.outcomes[1]? = some ⟨"done", "r", .skipped⟩ := by cbv
  have run := trigger_run e .afterCreated "task" ["r", "r"] s
  exact ⟨rfl, second, run.2.2.1 1 _ _ rfl second⟩

end RowFormula
