import RowFormula.Proofs.Log.Recording
import RowFormula.Proofs.Trigger.Step
import RowFormula.Proofs.Variable.Frame

/-! What a pair does depends on the rows alone: its status and, but for their numbers, the
entries that it leaves in the log. Of the rows it depends on no place of its entity that is
neither its own nor read by its formula.
-/

namespace RowFormula

namespace Engine

/-- The value that a pair's formula has in a store. -/
def computedValue (e : Engine) (event : LifecycleEvent) (entity : String) (p : Pair)
    (triggeredBy : CalculationTrigger) (rows : RowStore)
    : Except CalculationError Value :=
  valueOf p.formula (e.resolved (pairRequest event entity p triggeredBy) rows)

/-- The status of a pair that finds some rows. -/
def statusOf (e : Engine) (event : LifecycleEvent) (entity : String) (p : Pair)
    (rows : RowStore)
    : PairStatus :=
  match e.decision event entity p rows with
  | .error cause => .failed (TriggerError.store cause).message
  | .ok .skip => .skipped
  | .ok (.calculate triggeredBy) =>
    match e.computedValue event entity p triggeredBy rows with
    | .error cause => .failed (TriggerError.calculation cause).message
    | .ok v =>
      match e.writeResult entity p v rows with
      | .error cause => .failed (TriggerError.store cause).message
      | .ok _ => .written v triggeredBy

def outcomeOf (e : Engine) (event : LifecycleEvent) (entity : String) (rows : RowStore)
    (p : Pair)
    : PairOutcome :=
  ⟨p.property.name, p.row, e.statusOf event entity p rows⟩

-----------------------------------------------------------------------------------------
-- What a step does depends on the rows alone
-----------------------------------------------------------------------------------------

section

variable {e : Engine} {event : LifecycleEvent} {entity : String} {p : Pair}
  {s after : EngineState} {status : PairStatus}

theorem computedValue_eq {triggeredBy : CalculationTrigger}
    {result : Except CalculationError EndResult} {log : ExecutionLog}
    (calculated : e.calculate (pairRequest event entity p triggeredBy) s = (result, log))
    : e.computedValue event entity p triggeredBy s.rows = result.map (·.value) := by
  have value := e.calculate_value (pairRequest event entity p triggeredBy) s
  rw [calculated] at value
  exact value.symm

theorem PairStep.status_eq (step : e.PairStep event entity p s status after)
    : status = e.statusOf event entity p s.rows := by
  cases step with
  | unread decided | skipped decided => simp only [statusOf, decided]
  | uncalculated decided calculated =>
      simp only [statusOf, decided, computedValue_eq calculated, Except.map]
  | unwritten decided calculated refused =>
      simp only [statusOf, decided, computedValue_eq calculated, Except.map, refused]
  | written decided calculated stored =>
      simp only [statusOf, decided, computedValue_eq calculated, Except.map, stored]

end

-----------------------------------------------------------------------------------------
-- Places that a pair does not read
-----------------------------------------------------------------------------------------

section

variable {e : Engine} {event : LifecycleEvent} {entity : String} {p : Pair}
  {places : Place → Prop} {s t : RowStore} (agree : s.AgreeExcept places t)

include agree

theorem writeResult_frame (v : Value)
    : (e.writeResult entity p v s).map (fun _ => ())
      = (e.writeResult entity p v t).map fun _ => () := by
  have same := agree.write_outcome entity p.row p.property.name (p.formula.resultAs.toSlots v)
  simp only [writeResult, RowAccess.writeProperty, RowAccess.guarded]
  cases e.outage (.writeProperty entity p.row p.property.name
    (p.formula.resultAs.toSlots v)) with
  | some reason => rfl
  | none => exact same

section

variable (confined : ∀ place, places place → place.entity = entity)
  (unread : ∀ place, places place → ¬p.formula.ReadsOwn entity place.property)

include confined unread

/-- A pair that is recomputed on the same grounds has the same status in stores that agree
except in places of its entity that its formula does not read.
-/
theorem statusOf_congr
    (decided : e.decision event entity p s = e.decision event entity p t)
    : e.statusOf event entity p s = e.statusOf event entity p t := by
  have value (triggeredBy : CalculationTrigger)
      : e.computedValue event entity p triggeredBy s
        = e.computedValue event entity p triggeredBy t := by
    simp only [computedValue]
    rw [resolved_frame agree confined (pairRequest event entity p triggeredBy) p.row rfl
      unread]
  simp only [statusOf, decided, value]
  split
  · rfl
  · rfl
  · split
    · rfl
    · next v _ =>
        have same : (e.writeResult entity p v s).map (fun _ => ())
            = (e.writeResult entity p v t).map fun _ => () :=
          writeResult_frame agree v
        cases left : e.writeResult entity p v s <;> cases right : e.writeResult entity p v t <;>
          simp only [left, right, Except.map, reduceCtorEq, Except.error.injEq] at same ⊢
        rw [same]

end

variable (own : ¬places (p.place entity))

include own

theorem decision_frame : e.decision event entity p s = e.decision event entity p t := by
  have same := agree.value (p.place entity) own
  simp only [RowStore.valueAt, Pair.place] at same
  simp only [decision, storedValue, RowAccess.readProperty, same]
  rfl

variable (confined : ∀ place, places place → place.entity = entity)
  (unread : ∀ place, places place → ¬p.formula.ReadsOwn entity place.property)

include confined unread

/-- A pair has the same status in stores that agree except in places of its entity that it
neither writes nor reads.
-/
theorem statusOf_frame : e.statusOf event entity p s = e.statusOf event entity p t :=
  statusOf_congr agree confined unread (decision_frame agree own)

end

end Engine

end RowFormula
