import RowFormula.Proofs.Engine.Lockstep
import RowFormula.Proofs.Engine.Running

/-! The log is only written to. Two engines that differ in nothing but their logs answer every
request alike, apart from the id of the log entry, and their trigger runs report and store the
same, whatever turns the workers take.
-/

namespace RowFormula

/-- A result that does not tell whether and where it was logged. -/
def EndResult.withoutLogId (result : EndResult) : EndResult :=
  { result with logId := none }

/-- The same request for a formula that may be logged or not, with another context, and as a
preview or not.
-/
def CalculationRequest.relogged (request : CalculationRequest) (withLogs : Bool)
    (context : TriggerContext) (debug : Bool)
    : CalculationRequest :=
  { request with formula := { request.formula with withLogs }, context, debug }

namespace Engine

/-- The same engine with other access to a log, and with other durations to record. -/
def relogged (e : Engine) (access : LogAccess) (elapsed : Nat) : Engine :=
  { e with logAccess := access, elapsed }

variable {e : Engine} {access : LogAccess} {elapsed : Nat}

-----------------------------------------------------------------------------------------
-- Calculations
-----------------------------------------------------------------------------------------

/-- Results that differ at most in whether and where they were logged. -/
def SameButLogId (result other : Except CalculationError EndResult) : Prop :=
  result.map EndResult.withoutLogId = other.map EndResult.withoutLogId

/-- Neither the engine's log nor what a request says about logging has a part in a calculation. -/
theorem calculation_alike (request : CalculationRequest) (withLogs : Bool)
    (context : TriggerContext) (debug : Bool)
    : Work.Alike SameButLogId (e.calculation request)
        ((e.relogged access elapsed).calculation (request.relogged withLogs context debug)) := by
  refine (Work.alike_ofQuery _).bind ?_
  rintro found _ rfl
  refine .begun fun id other => .completed (.done ?_)
  have value : valueOf (request.relogged withLogs context debug).formula found.resolved
      = valueOf request.formula found.resolved := rfl
  rw [SameButLogId, value]
  cases valueOf request.formula found.resolved <;> rfl

/-- What is not to be recorded leaves the log as it is. -/
theorem calculate_unrecorded {request : CalculationRequest} (s : EngineState)
    (unrecorded : request.formula.withLogs = false ∨ request.debug = true)
    : (e.calculate request s).2 = s.log := by
  have off : e.records request = false := by
    rcases unrecorded with without | preview
    · simp [records, without]
    · simp [records, preview]
  simp [calculate, run_calculation, beginEntry, off, completeEntry]

-----------------------------------------------------------------------------------------
-- Trigger runs
-----------------------------------------------------------------------------------------

section

variable (event : LifecycleEvent) (entity : String) (p : Pair)

theorem recalculation_alike (triggeredBy : CalculationTrigger)
    : Work.Alike Eq (e.recalculation event entity p triggeredBy)
        ((e.relogged access elapsed).recalculation event entity p triggeredBy) := by
  let request := pairRequest event entity p triggeredBy
  have calculated : Work.Alike SameButLogId (e.calculation request)
      ((e.relogged access elapsed).calculation request) :=
    calculation_alike request request.formula.withLogs request.context request.debug
  refine calculated.bind ?_
  rintro (cause | result) (other | other) same
  · obtain rfl : cause = other := Except.error.inj same
    exact .done rfl
  · cases same
  · cases same
  · have unlogged : result.withoutLogId = other.withoutLogId := Except.ok.inj same
    have value : result.value = other.value := congrArg (·.value) unlogged
    simp only [value]
    refine (Work.alike_write _).bind ?_
    rintro (cause | _) _ rfl
    · exact .done rfl
    · exact .done rfl

theorem pairWork_alike
    : Work.Alike Eq (e.pairWork event entity p)
        ((e.relogged access elapsed).pairWork event entity p) := by
  have consulted : Work.Alike Eq (consultation event entity p) (consultation event entity p) := by
    rw [consultation]
    split
    · exact .rows trivial fun _ => .done rfl
    · exact .done rfl
  have recomputed : Work.Alike Eq (e.recomputation event entity p)
      ((e.relogged access elapsed).recomputation event entity p) := by
    refine consulted.bind ?_
    rintro stored _ rfl
    rcases TriggerDecision.decide p.formula.trigger event.trigger stored with
      cause | triggeredBy | _
    · exact .done rfl
    · exact recalculation_alike event entity p triggeredBy
    · exact .done rfl
  exact recomputed.bind fun status other same => .done (by rw [same])

end

/-- Pairs that are processed on engines with different logs report and store the same, in whichever
turns the workers take.
-/
theorem fanOut_relogged (e : Engine) (access : LogAccess) (elapsed : Nat) (event : LifecycleEvent)
    (entity : String) (pairs : List Pair) (schedule : List Nat) (rows : RowStore)
    (log otherLog : ExecutionLog)
    : let left := e.fanOut event entity pairs schedule ⟨rows, log⟩
      let right := (e.relogged access elapsed).fanOut event entity pairs schedule ⟨rows, otherLog⟩
      left.1 = right.1 ∧ left.2.rows = right.2.rows := by
  let other := e.relogged access elapsed
  have outage : e.outage = other.outage := rfl
  have same : EngineState.rows ⟨rows, log⟩ = EngineState.rows ⟨rows, otherLog⟩ := rfl
  have alike
      : List.Forall₂ (Work.Alike Eq) (pairs.map (e.pairWork event entity))
          (pairs.map (other.pairWork event entity)) := by
    rw [List.forall₂_map_left_iff, List.forall₂_map_right_iff, List.forall₂_same]
    exact fun p _ => pairWork_alike event entity p
  have config : other.config = e.config := rfl
  simp only [fanOut, other, config]
  split
  · obtain ⟨outcomes, stored⟩ := Work.Alike.interleave outage schedule alike same
    rw [List.forall₂_eq_eq_eq] at outcomes
    exact ⟨outcomes, stored⟩
  · obtain ⟨outcomes, stored⟩ := Work.Alike.runAll outage alike same
    rw [List.forall₂_eq_eq_eq] at outcomes
    simp only [runAll_pairWork] at outcomes stored
    exact ⟨outcomes, stored⟩

end Engine

/-- Logging never influences results. Whatever logs two engines have that are otherwise the
same, and whatever is said about logging in a request, they give it the same value,
expression and rows, or the same error. A calculation changes no row, and leaves the log as it
is unless it is to be recorded. The same trigger run gives the same report on both engines and
leaves the same rows; where pairs are processed at the same time, it does so for each way in
which their work may be interleaved.
-/
theorem logging_never_influences (e : Engine) (access : LogAccess) (elapsed : Nat)
    (rows : RowStore) (log otherLog : ExecutionLog)
    : let other := e.relogged access elapsed
      (∀ request withLogs context debug,
        (e.calculate request ⟨rows, log⟩).1.map EndResult.withoutLogId
          = (other.calculate (request.relogged withLogs context debug) ⟨rows, otherLog⟩).1.map
              EndResult.withoutLogId
        ∧ ((e.calculation request).run e ⟨rows, log⟩).2.rows = rows
        ∧ (request.formula.withLogs = false ∨ request.debug = true
          → (e.calculate request ⟨rows, log⟩).2 = log))
      ∧ ∀ event entity ids schedule,
          let run := e.trigger event entity ids ⟨rows, log⟩ schedule
          let otherRun := other.trigger event entity ids ⟨rows, otherLog⟩ schedule
          run.1 = otherRun.1 ∧ run.2.rows = otherRun.2.rows := by
  intro other
  constructor
  · intro request withLogs context debug
    have alike : Work.Alike Engine.SameButLogId (e.calculation request)
        (other.calculation (request.relogged withLogs context debug)) :=
      Engine.calculation_alike request withLogs context debug
    have answers := alike.run (e := e) (s := ⟨rows, log⟩) (t := ⟨rows, otherLog⟩)
      (show e.outage = other.outage from rfl) rfl
    refine ⟨answers.1, ?_, Engine.calculate_unrecorded ⟨rows, log⟩⟩
    rw [Engine.run_calculation_eq]
  · intro event entity ids schedule
    have catalog : other.catalog = e.catalog := rfl
    simp only [Engine.trigger, catalog]
    cases e.catalog.entity entity with
    | error cause => exact ⟨rfl, rfl⟩
    | ok schema =>
        have same := e.fanOut_relogged access elapsed event schema.name
          (Engine.pairs schema ids) schedule rows log otherLog
        exact ⟨congrArg (TriggerReport.mk event schema.name · none) same.1, same.2⟩

end RowFormula
