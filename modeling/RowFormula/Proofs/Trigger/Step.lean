import RowFormula.Proofs.Engine.Running
import RowFormula.Proofs.Rows.Writes

/-! What processing one pair of a property and a row can do. It ends in one of five ways,
and only the last of them changes the rows.
-/

namespace RowFormula

namespace TriggerDecision

theorem event_ne_ifUnset (event : LifecycleEvent) : event.trigger ≠ .ifUnset := by
  cases event <;> decide

/-- A property is skipped when its trigger is neither the event nor `ALWAYS`, unless it is
to be filled when unset and its stored value is null or cannot be read.
-/
theorem decide_eq_skip_iff {configured : CalculationTrigger} {event : LifecycleEvent}
    {stored : Except StoreError Value}
    : TriggerDecision.decide configured event.trigger stored = .ok .skip
      ↔ (configured ≠ event.trigger ∧ configured ≠ .always)
        ∧ (configured ≠ .ifUnset ∨ ∃ v, stored = .ok v ∧ v ≠ .null) := by
  by_cases fires : configured = event.trigger
  · simp [TriggerDecision.decide, fires]
  · cases configured with
    | ifUnset =>
        cases stored with
        | error cause => simp [TriggerDecision.decide, fires, Except.map]
        | ok v => cases v <;> simp [TriggerDecision.decide, fires, Except.map, Value.isNull]
    | _ => simp [TriggerDecision.decide, fires]

/-- Deciding fails exactly when a property is to be filled when unset and its stored value
cannot be read.
-/
theorem decide_eq_error_iff {configured : CalculationTrigger} {event : LifecycleEvent}
    {stored : Except StoreError Value} {cause : StoreError}
    : TriggerDecision.decide configured event.trigger stored = .error cause
      ↔ configured = .ifUnset ∧ stored = .error cause := by
  by_cases fires : configured = event.trigger
  · have other := event_ne_ifUnset event
    simp [TriggerDecision.decide, fires, other]
  · cases configured with
    | ifUnset => cases stored <;> simp [TriggerDecision.decide, fires, Except.map]
    | _ => simp [TriggerDecision.decide, fires]

/-- A property is recomputed on account of its own trigger, which is the event or `ALWAYS`, or
else fills a stored value that is null.
-/
theorem decide_eq_calculate_iff {configured triggeredBy : CalculationTrigger}
    {event : LifecycleEvent} {stored : Except StoreError Value}
    : TriggerDecision.decide configured event.trigger stored = .ok (.calculate triggeredBy)
      ↔ triggeredBy = configured
        ∧ ((configured = event.trigger ∨ configured = .always)
          ∨ configured = .ifUnset ∧ stored = .ok .null) := by
  by_cases fires : configured = event.trigger
  · simp [TriggerDecision.decide, fires, eq_comm]
  · cases configured with
    | ifUnset =>
        cases stored with
        | error cause => simp [TriggerDecision.decide, fires, Except.map]
        | ok v =>
            cases v <;> simp [TriggerDecision.decide, fires, Except.map, Value.isNull, eq_comm]
    | _ => simp [TriggerDecision.decide, fires, eq_comm]

/-- The stored value has no part in a decision for which it is not read. -/
theorem decide_of_unread {configured firing : CalculationTrigger}
    (unread : readsStored configured firing = false) (stored other : Except StoreError Value)
    : TriggerDecision.decide configured firing stored
      = TriggerDecision.decide configured firing other := by
  by_cases fires : configured = firing
  · simp only [TriggerDecision.decide, fires, if_true]
  · cases configured with
    | ifUnset => simp [readsStored, fires] at unread
    | _ => rfl

end TriggerDecision

namespace Engine

def Pair.place (entity : String) (p : Pair) : Place :=
  ⟨entity, p.row, p.property.name⟩

def storedValue (e : Engine) (entity : String) (p : Pair) (rows : RowStore)
    : Except StoreError Value :=
  RowAccess.readProperty ⟨rows, e.outage⟩ entity p.row p.property.name

/-- Whether a pair is recomputed on account of an event. -/
def decision (e : Engine) (event : LifecycleEvent) (entity : String) (p : Pair)
    (rows : RowStore)
    : Except StoreError TriggerDecision :=
  TriggerDecision.decide p.formula.trigger event.trigger (e.storedValue entity p rows)

/-- The store after the result of a pair was written to it. -/
def writeResult (e : Engine) (entity : String) (p : Pair) (v : Value) (rows : RowStore)
    : Except StoreError RowStore :=
  RowAccess.writeProperty ⟨rows, e.outage⟩ entity p.row p.property.name
    (p.formula.resultAs.toSlots v)

/-- The ways in which a pair is processed, with the status that is reported and the state
that is left. A failed calculation, like a failed write, leaves its entry in the log.
-/
inductive PairStep (e : Engine) (event : LifecycleEvent) (entity : String) (p : Pair)
    (s : EngineState)
    : PairStatus → EngineState → Prop
  | unread {cause} (decided : e.decision event entity p s.rows = .error cause)
    : PairStep e event entity p s (.failed (TriggerError.store cause).message) s
  | skipped (decided : e.decision event entity p s.rows = .ok .skip)
    : PairStep e event entity p s .skipped s
  | uncalculated {triggeredBy cause log}
    (decided : e.decision event entity p s.rows = .ok (.calculate triggeredBy))
    (calculated : e.calculate (pairRequest event entity p triggeredBy) s = (.error cause, log))
    : PairStep e event entity p s (.failed (TriggerError.calculation cause).message)
        { s with log }
  | unwritten {triggeredBy result cause log}
    (decided : e.decision event entity p s.rows = .ok (.calculate triggeredBy))
    (calculated : e.calculate (pairRequest event entity p triggeredBy) s = (.ok result, log))
    (refused : e.writeResult entity p result.value s.rows = .error cause)
    : PairStep e event entity p s (.failed (TriggerError.store cause).message) { s with log }
  | written {triggeredBy result log rows}
    (decided : e.decision event entity p s.rows = .ok (.calculate triggeredBy))
    (calculated : e.calculate (pairRequest event entity p triggeredBy) s = (.ok result, log))
    (stored : e.writeResult entity p result.value s.rows = .ok rows)
    : PairStep e event entity p s (.written result.value triggeredBy) { rows, log }

section

variable (e : Engine) (event : LifecycleEvent) (entity : String) (p : Pair) (s : EngineState)

/-- What is decided is the same as if the stored value were always read. -/
theorem run_consultation
    : ((consultation event entity p).run e s).2 = s
      ∧ TriggerDecision.decide p.formula.trigger event.trigger
          ((consultation event entity p).run e s).1
        = e.decision event entity p s.rows := by
  rw [consultation]
  split
  · exact ⟨rfl, rfl⟩
  · next unread =>
      exact ⟨rfl, TriggerDecision.decide_of_unread (eq_false_of_ne_true unread) _ _⟩

theorem run_recomputation
    : (e.recomputation event entity p).run e s
      = match e.decision event entity p s.rows with
        | .error cause => (.failed (TriggerError.store cause).message, s)
        | .ok .skip => (.skipped, s)
        | .ok (.calculate triggeredBy) =>
          (e.recalculation event entity p triggeredBy).run e s := by
  obtain ⟨unchanged, decided⟩ := run_consultation e event entity p s
  rw [recomputation, Work.run_bind, unchanged, decided]
  rcases e.decision event entity p s.rows with cause | triggeredBy | _ <;> rfl

section

variable {triggeredBy : CalculationTrigger} {log : ExecutionLog}

theorem run_recalculation_of_error {cause : CalculationError}
    (calculated : e.calculate (pairRequest event entity p triggeredBy) s = (.error cause, log))
    : (e.recalculation event entity p triggeredBy).run e s
      = (.failed (TriggerError.calculation cause).message, { s with log }) := by
  rw [recalculation, Work.run_bind, run_calculation_eq, calculated]
  rfl

variable {result : EndResult}
  (calculated : e.calculate (pairRequest event entity p triggeredBy) s = (.ok result, log))

include calculated

theorem run_recalculation_of_refused {cause : StoreError}
    (refused : e.writeResult entity p result.value s.rows = .error cause)
    : (e.recalculation event entity p triggeredBy).run e s
      = (.failed (TriggerError.store cause).message, { s with log }) := by
  rw [writeResult] at refused
  rw [recalculation, Work.run_bind, run_calculation_eq, calculated]
  dsimp only
  rw [Work.run_bind, Work.run_write]
  dsimp only
  rw [refused]
  rfl

theorem run_recalculation_of_stored {rows : RowStore}
    (stored : e.writeResult entity p result.value s.rows = .ok rows)
    : (e.recalculation event entity p triggeredBy).run e s
      = (.written result.value triggeredBy, { rows, log }) := by
  rw [writeResult] at stored
  rw [recalculation, Work.run_bind, run_calculation_eq, calculated]
  dsimp only
  rw [Work.run_bind, Work.run_write]
  dsimp only
  rw [stored]
  rfl

end

/-- Processing a pair ends in one of the five ways and reports the pair. -/
theorem processPair_step
    : ∃ status after,
        e.processPair event entity p s = (⟨p.property.name, p.row, status⟩, after)
        ∧ e.PairStep event entity p s status after := by
  have reported : e.processPair event entity p s
      = (⟨p.property.name, p.row, ((e.recomputation event entity p).run e s).1⟩,
        ((e.recomputation event entity p).run e s).2) :=
    Work.run_bind ..
  refine ⟨_, _, reported, ?_⟩
  rw [run_recomputation]
  cases decided : e.decision event entity p s.rows with
  | error cause => exact .unread decided
  | ok choice =>
      cases choice with
      | skip => exact .skipped decided
      | calculate triggeredBy =>
          dsimp only
          rcases calculated : e.calculate (pairRequest event entity p triggeredBy) s with
            ⟨cause | result, log⟩
          · rw [run_recalculation_of_error e event entity p s calculated]
            exact .uncalculated decided calculated
          · cases stored : e.writeResult entity p result.value s.rows with
            | error cause =>
                rw [run_recalculation_of_refused e event entity p s calculated stored]
                exact .unwritten decided calculated stored
            | ok rows =>
                rw [run_recalculation_of_stored e event entity p s calculated stored]
                exact .written decided calculated stored

end

/-- The ways in which pairs are processed one after another. -/
inductive PairRun (e : Engine) (event : LifecycleEvent) (entity : String)
    : List Pair → EngineState → List PairOutcome → EngineState → Prop
  | nil (s : EngineState) : PairRun e event entity [] s [] s
  | cons {p rest s status middle outcomes after}
    (step : e.PairStep event entity p s status middle)
    (others : PairRun e event entity rest middle outcomes after)
    : PairRun e event entity (p :: rest) s (⟨p.property.name, p.row, status⟩ :: outcomes) after

/-- Processing pairs takes one step for each of them in turn, by induction on the pairs. -/
theorem processPairs_run (e : Engine) (event : LifecycleEvent) (entity : String)
    (ps : List Pair) (s : EngineState)
    : e.PairRun event entity ps s (e.processPairs event entity ps s).1
        (e.processPairs event entity ps s).2 := by
  induction ps generalizing s with
  | nil => exact .nil s
  | cons p rest ih =>
      obtain ⟨status, middle, processed, step⟩ := e.processPair_step event entity p s
      simp only [processPairs, processed]
      exact .cons step (ih middle)

end Engine

end RowFormula
