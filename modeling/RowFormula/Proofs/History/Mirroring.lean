import Mathlib
import RowFormula.Proofs.History.Calls
import RowFormula.Proofs.Log.Recording

/-! The log of a history: it has one entry for each evaluation that is to be recorded, in the
order in which they were run, and the entry says what was answered or reported about the
evaluation.
-/

namespace RowFormula

open Engine (Pair pairRequest)

/-- An evaluation of a formula, with what the caller was told about it. -/
inductive Evaluation where
  /-- A request that was calculated by itself, with the answer. -/
  | direct (request : CalculationRequest) (answer : Except CalculationError EndResult)
  /-- A pair that a trigger run recomputed, with what the calculation answered and the status
  that was reported.
  -/
  | ofPair (event : LifecycleEvent) (entity : String) (p : Pair)
    (triggeredBy : CalculationTrigger) (answer : Except CalculationError EndResult)
    (status : PairStatus)

/-- The request that was evaluated. -/
def Evaluation.request : Evaluation → CalculationRequest
  | direct request _ => request
  | ofPair event entity p triggeredBy _ _ => pairRequest event entity p triggeredBy

/-- Whether an evaluation is to be recorded. -/
def Evaluation.recorded (evaluation : Evaluation) : Bool :=
  evaluation.request.formula.withLogs && !evaluation.request.debug

namespace Engine

/-- The evaluation of a pair that found a state and was reported with a status, if the pair
was recomputed.
-/
def evaluation? (e : Engine) (event : LifecycleEvent) (entity : String) (p : Pair)
    (s : EngineState) (status : PairStatus)
    : Option Evaluation :=
  match e.decision event entity p s.rows with
  | .ok (.calculate triggeredBy) =>
    let answer := (e.calculate (pairRequest event entity p triggeredBy) s).1
    some (.ofPair event entity p triggeredBy answer status)
  | _ => none

/-- The evaluations of pairs that were processed one after another and reported. -/
def pairEvaluations (e : Engine) (event : LifecycleEvent) (entity : String)
    : List Pair → List PairOutcome → EngineState → List Evaluation
  | p :: rest, outcome :: outcomes, s =>
    let after := (e.processPair event entity p s).2
    (e.evaluation? event entity p s outcome.status).toList
      ++ e.pairEvaluations event entity rest outcomes after
  | _, _, _ => []

/-- The evaluations that a request ran which found a state and was answered, in order. -/
def requestEvaluations (e : Engine) (found : EngineState)
    : EngineRequest → EngineAnswer → List Evaluation
  | .calculate request, .calculated answer => [.direct request answer]
  | .trigger event entity rows, .triggered report =>
    match e.catalog.get? entity with
    | none => []
    | some schema =>
      e.pairEvaluations event schema.name (pairs schema rows) report.outcomes found
  | _, _ => []

/-- The evaluations that an answered call ran, in order. -/
def evaluations (e : Engine) (made : AnsweredCall) : List Evaluation :=
  (e.suffering made.call.outage).requestEvaluations made.found made.call.request made.answer

end Engine

namespace LogEntry

/-- An entry records a request and its answer: it was completed with the value or the error
of the answer, which refers to it.
-/
structure Records (entry : LogEntry) (request : CalculationRequest)
    (answer : Except CalculationError EndResult)
    : Prop where
  formula
    : entry.entry.formulaId = request.formula.id
      ∧ entry.entry.components = request.formula.components
  context : entry.entry.context = request.context
  completed : entry.duration.isSome
  answered
    : ∀ result,
        answer = .ok result
        → result.logId = some entry.id
          ∧ entry.result = some result.value
          ∧ entry.error = none
          ∧ entry.entry.expression = result.expression
          ∧ entry.entry.rowIds = result.rowIds
  failed
    : ∀ cause,
        answer = .error cause → entry.result = none ∧ entry.error = some cause.message

/-- What an entry says about a pair is what was reported: the value if it was written, and the
text of the error if the calculation failed. If only the write failed, the entry keeps the
value.
-/
inductive Reports (entry : LogEntry) (triggeredBy : CalculationTrigger)
    : Except CalculationError EndResult → PairStatus → Prop
  | written {result : EndResult} (kept : entry.result = some result.value)
    (clear : entry.error = none)
    : entry.Reports triggeredBy (.ok result) (.written result.value triggeredBy)
  | unwritten {result : EndResult} {cause : StoreError}
    (kept : entry.result = some result.value) (clear : entry.error = none)
    : entry.Reports triggeredBy (.ok result) (.failed (TriggerError.store cause).message)
  | uncalculated {cause : CalculationError} {text : String} (empty : entry.result = none)
    (told : entry.error = some text)
    : entry.Reports triggeredBy (.error cause) (.failed text)

/-- An entry records an evaluation. That of a pair names the event, the trigger on account of
which the pair was recomputed, and the place that it computes.
-/
def Mirrors (entry : LogEntry) : Evaluation → Prop
  | .direct request answer => entry.Records request answer
  | .ofPair event entity p triggeredBy answer status =>
    entry.Records (pairRequest event entity p triggeredBy) answer
    ∧ entry.entry.context.originalTrigger = some event.trigger
    ∧ entry.entry.context.triggeredBy = triggeredBy.name
    ∧ entry.entry.context.rowValueId
      = some (entity ++ "/" ++ p.row ++ "/" ++ p.property.name)
    ∧ entry.Reports triggeredBy answer status

/-- A completed entry has either a result or an error. -/
theorem Records.closed {entry : LogEntry} {request : CalculationRequest}
    {answer : Except CalculationError EndResult} (records : entry.Records request answer)
    : entry.duration.isSome ∧ entry.result.isSome ≠ entry.error.isSome := by
  refine ⟨records.completed, ?_⟩
  cases answer with
  | error cause =>
      obtain ⟨empty, told⟩ := records.failed cause rfl
      simp [empty, told]
  | ok result =>
      obtain ⟨_, kept, clear, _⟩ := records.answered result rfl
      simp [kept, clear]

theorem Mirrors.closed {entry : LogEntry} {evaluation : Evaluation}
    (mirrors : entry.Mirrors evaluation)
    : entry.duration.isSome ∧ entry.result.isSome ≠ entry.error.isSome := by
  cases evaluation with
  | direct request answer => exact Records.closed mirrors
  | ofPair event entity p triggeredBy answer status => exact mirrors.1.closed

end LogEntry

namespace ExecutionLog

/-- A log goes on with one entry for each of some evaluations that is to be recorded. -/
def GoesOn (evaluations : List Evaluation) (log later : ExecutionLog) : Prop :=
  ∃ new,
    later.entries = log.entries ++ new
    ∧ List.Forall₂ LogEntry.Mirrors new (evaluations.filter (·.recorded))

theorem GoesOn.refl (log : ExecutionLog) : GoesOn [] log log :=
  ⟨[], (List.append_nil _).symm, .nil⟩

theorem GoesOn.trans {first second : List Evaluation} {log middle later : ExecutionLog}
    (early : GoesOn first log middle) (late : GoesOn second middle later)
    : GoesOn (first ++ second) log later := by
  obtain ⟨earlyNew, earlyAdded, earlyMirrors⟩ := early
  obtain ⟨lateNew, lateAdded, lateMirrors⟩ := late
  refine ⟨earlyNew ++ lateNew, ?_, ?_⟩
  · rw [lateAdded, earlyAdded, List.append_assoc]
  · rw [List.filter_append]
    exact List.rel_append earlyMirrors lateMirrors

end ExecutionLog

namespace Engine

section

variable {e : Engine} (working : e.logAccess = .working)

include working

-----------------------------------------------------------------------------------------
-- One evaluation
-----------------------------------------------------------------------------------------

/-- The entry that a working log gets for an evaluation records it. -/
theorem loggedEntry_records {request : CalculationRequest} (s : EngineState)
    (recorded : e.records request)
    : (e.loggedEntry request (e.resolved request s.rows) (s.log.entries.length + 1)).Records
        request (e.calculate request s).1 := by
  have created : (e.records request && e.logAccess ≠ .createFails) = true := by
    simp [recorded, working]
  have answer := e.calculate_answer request s
  simp only [created, if_true] at answer
  rw [answer, loggedEntry, if_pos working]
  cases valueOf request.formula (e.resolved request s.rows) with
  | error cause =>
      refine ⟨⟨rfl, rfl⟩, rfl, rfl, ?_, ?_⟩
      · intro result answered
        cases answered
      · rintro _ ⟨⟩
        exact ⟨rfl, rfl⟩
  | ok v =>
      refine ⟨⟨rfl, rfl⟩, rfl, rfl, ?_, ?_⟩
      · rintro _ ⟨⟩
        exact ⟨rfl, rfl, rfl, rfl, rfl⟩
      · intro cause failed
        cases failed

/-- A log goes on with the entry of an evaluation if it is to be recorded. -/
theorem calculate_goesOn (s : EngineState) (evaluation : Evaluation)
    (mirrors : ∀ entry : LogEntry,
      entry.Records evaluation.request (e.calculate evaluation.request s).1
      → entry.Mirrors evaluation)
    : ExecutionLog.GoesOn [evaluation] s.log (e.calculate evaluation.request s).2 := by
  have records : e.records evaluation.request = evaluation.recorded := by
    simp [Engine.records, Evaluation.recorded, working]
  refine ⟨_, e.calculate_log evaluation.request s, ?_⟩
  cases recorded : evaluation.recorded with
  | false => simp [logged, records, recorded]
  | true =>
      have entry := loggedEntry_records working s (records.trans recorded)
      have created : (e.records evaluation.request && e.logAccess ≠ .createFails) = true := by
        simp [records, recorded, working]
      simp only [logged, created, if_true, List.filter_cons, recorded, List.filter_nil]
      exact .cons (mirrors _ entry) .nil

-----------------------------------------------------------------------------------------
-- A trigger run
-----------------------------------------------------------------------------------------

/-- A step that recomputes its pair leaves the entry of one evaluation, and any other step
leaves none.
-/
theorem PairStep.goesOn {event : LifecycleEvent} {entity : String} {p : Pair}
    {s after : EngineState} {status : PairStatus}
    (step : e.PairStep event entity p s status after)
    : ExecutionLog.GoesOn (e.evaluation? event entity p s status).toList s.log after.log := by
  have evaluated {triggeredBy answer log}
      (decided : e.decision event entity p s.rows = .ok (.calculate triggeredBy))
      (calculated : e.calculate (pairRequest event entity p triggeredBy) s = (answer, log))
      (reports : ∀ entry : LogEntry,
        entry.Records (pairRequest event entity p triggeredBy) answer
        → entry.Reports triggeredBy answer status)
      : ExecutionLog.GoesOn (e.evaluation? event entity p s status).toList s.log log := by
    have added := calculate_goesOn working s
      (.ofPair event entity p triggeredBy answer status) fun entry records => by
        simp only [Evaluation.request, calculated] at records
        refine ⟨records, ?_, ?_, ?_, reports entry records⟩ <;> rw [records.context] <;> rfl
    simp only [Evaluation.request, calculated] at added
    simp only [evaluation?, decided, calculated]
    exact added
  cases step with
  | unread decided | skipped decided =>
      simp only [evaluation?, decided]
      exact .refl s.log
  | uncalculated decided calculated =>
      refine evaluated decided calculated fun entry records => ?_
      obtain ⟨empty, told⟩ := records.failed _ rfl
      exact .uncalculated empty told
  | unwritten decided calculated refused =>
      refine evaluated decided calculated fun entry records => ?_
      obtain ⟨_, kept, clear, _⟩ := records.answered _ rfl
      exact .unwritten kept clear
  | written decided calculated stored =>
      refine evaluated decided calculated fun entry records => ?_
      obtain ⟨_, kept, clear, _⟩ := records.answered _ rfl
      exact .written kept clear

/-- Processing pairs leaves the entries of their evaluations, by induction on the pairs. -/
theorem processPairs_goesOn (event : LifecycleEvent) (entity : String) (ps : List Pair)
    (s : EngineState)
    : ExecutionLog.GoesOn
        (e.pairEvaluations event entity ps (e.processPairs event entity ps s).1 s)
        s.log (e.processPairs event entity ps s).2.log := by
  induction ps generalizing s with
  | nil => exact .refl s.log
  | cons p rest ih =>
      obtain ⟨status, middle, processed, step⟩ := e.processPair_step event entity p s
      have first := step.goesOn working
      simp only [processPairs, pairEvaluations, processed]
      exact first.trans (ih middle)

-----------------------------------------------------------------------------------------
-- A history
-----------------------------------------------------------------------------------------

theorem respond_goesOn (request : EngineRequest) (s : EngineState)
    : ExecutionLog.GoesOn (e.requestEvaluations s request (e.respond s request).1) s.log
        (e.respond s request).2.log := by
  cases request with
  | calculate request =>
      exact calculate_goesOn working s (.direct request _) fun entry records => records
  | trigger event entity rows =>
      simp only [requestEvaluations, respond, trigger_eq, Catalog.entity]
      cases known : e.catalog.get? entity with
      | none => exact .refl s.log
      | some schema => exact processPairs_goesOn working event schema.name _ s

/-- A history leaves the entries of the evaluations that its calls ran, by induction on the
calls.
-/
theorem history_goesOn (calls : List EngineCall) (s : EngineState)
    : ExecutionLog.GoesOn ((e.history calls s).flatMap e.evaluations) s.log
        (e.stateAfter calls s).log := by
  induction calls generalizing s with
  | nil => exact .refl s.log
  | cons call rest ih =>
      have suffering : (e.suffering call.outage).logAccess = .working := working
      have first := respond_goesOn suffering call.request s
      exact first.trans (ih _)

end

end Engine

/-- The log mirrors the evaluations. After any calls to an engine with a working log, which is
empty at first, and whatever calls to the row store fail, the entries are numbered from 1 and
correspond one to one, in order, to the evaluations that were run and are to be recorded.
Each entry is completed, with either the result or the error that was answered or reported.
-/
theorem log_mirrors_evaluations (e : Engine) (working : e.logAccess = .working)
    (rows : RowStore) (calls : List EngineCall)
    : let start : EngineState := { rows }
      let entries := (e.stateAfter calls start).log.entries
      let evaluations := (e.history calls start).flatMap e.evaluations
      let recorded := evaluations.filter (·.recorded)
      entries.map (·.id) = List.range' 1 recorded.length
      ∧ List.Forall₂ LogEntry.Mirrors entries recorded
      ∧ ∀ entry ∈ entries,
          entry.duration.isSome ∧ entry.result.isSome ≠ entry.error.isSome := by
  intro start entries evaluations recorded
  obtain ⟨new, added, mirrors⟩ := Engine.history_goesOn working calls start
  obtain rfl : entries = new := added
  have closed := mirrors.imp fun _ _ mirrored => And.intro mirrored.closed mirrored
  refine ⟨?_, mirrors, ((List.forall₂_and_left _ _).mp closed).1⟩
  rw [← mirrors.length_eq]
  exact (e.stateAfter calls start).log.numbered

open Engine in
/-- A request leaves an entry, a preview of it leaves none, and a row that is listed twice in a
trigger run leaves two.
-/
theorem log_mirrors_request_and_pairs
    : let formula : Formula :=
        { id := "f", resultAs := .boolean, trigger := .always, withLogs := true,
          components := [⟨0, .operand (.literal (.bool true))⟩] }
      let schema : EntitySchema :=
        { name := "task", properties := [{ name := "done", formula := some formula }] }
      let e : Engine := { catalog := .ofSchemas [schema], logAccess := .working }
      let rows : RowStore := ({} : RowStore).insertRow "task" "r" 0
      let calls : List EngineCall :=
        [ { request := .calculate { formula, bindings := .empty } },
          { request := .calculate { formula, bindings := .empty, debug := true } },
          { request := .trigger .afterCreated "task" ["r", "r"] } ]
      let start : EngineState := { rows }
      let entries := (e.stateAfter calls start).log.entries
      let recorded := ((e.history calls start).flatMap e.evaluations).filter (·.recorded)
      e.logAccess = .working
      ∧ recorded.length = 3
      ∧ entries.map (·.id) = [1, 2, 3]
      ∧ List.Forall₂ LogEntry.Mirrors entries recorded := by
  intro formula schema e rows calls start entries recorded
  have three : recorded.length = 3 := by cbv
  obtain ⟨ids, mirrors, _⟩ := log_mirrors_evaluations e rfl rows calls
  refine ⟨rfl, three, ?_, mirrors⟩
  have counted : List.range' 1 recorded.length = [1, 2, 3] := by
    rw [three]
    rfl
  exact ids.trans counted

end RowFormula
