import RowFormula.Proofs.Trigger.Step

/-! Calls to an engine one after another, each of which finds the state that the calls
before it left. Rows change in the steps of trigger runs alone, so that whatever holds
between the rows before and after such a step, and composes, holds over every history.
-/

namespace RowFormula

/-- What an engine can be asked for. Trigger runs process their pairs one after another. -/
inductive EngineRequest where
  | calculate (request : CalculationRequest)
  | trigger (event : LifecycleEvent) (entity : String) (rows : List String)

/-- A call to an engine, during which some calls to the row store may fail. -/
structure EngineCall where
  request : EngineRequest
  outage : Outage := .none

/-- What an engine answers to a call. -/
inductive EngineAnswer where
  | calculated (outcome : Except CalculationError EndResult)
  | triggered (report : TriggerReport)

/-- A call that was made, with the state that it found and the answer that it got. -/
structure AnsweredCall where
  call : EngineCall
  found : EngineState
  answer : EngineAnswer

namespace Engine

/-- The engine while some calls to the row store fail. -/
def suffering (e : Engine) (outage : Outage) : Engine :=
  { e with outage }

@[simp] theorem catalog_suffering (e : Engine) (outage : Outage)
    : (e.suffering outage).catalog = e.catalog := rfl

/-- The answer to a request, and the state that it leaves. -/
def respond (e : Engine) (s : EngineState) : EngineRequest → EngineAnswer × EngineState
  | .calculate request =>
    let (outcome, log) := e.calculate request s
    (.calculated outcome, { s with log })
  | .trigger event entity rows =>
    let (report, after) := e.trigger event entity rows s
    (.triggered report, after)

/-- The answer to a call, and the state that the call leaves. -/
def answer (e : Engine) (s : EngineState) (call : EngineCall) : EngineAnswer × EngineState :=
  (e.suffering call.outage).respond s call.request

/-- The state that calls leave which are made one after another. -/
def stateAfter (e : Engine) (calls : List EngineCall) (s : EngineState) : EngineState :=
  calls.foldl (fun s call => (e.answer s call).2) s

/-- The calls that are made one after another, each answered in the state that it finds. -/
def history (e : Engine) : List EngineCall → EngineState → List AnsweredCall
  | [], _ => []
  | call :: rest, s =>
    let (answer, after) := e.answer s call
    ⟨call, s, answer⟩ :: e.history rest after

theorem stateAfter_append (e : Engine) (before later : List EngineCall) (s : EngineState)
    : e.stateAfter (before ++ later) s = e.stateAfter later (e.stateAfter before s) :=
  List.foldl_append

/-- The pairs of a trigger run are those of a computed property and one of the rows. -/
theorem mem_pairs_iff {schema : EntitySchema} {rows : List String} {p : Pair}
    : p ∈ pairs schema rows
      ↔ (p.property, p.formula) ∈ schema.formulaProperties ∧ p.row ∈ rows := by
  simp only [pairs, List.mem_flatMap, List.mem_map]
  constructor
  · rintro ⟨computed, member, row, listed, rfl⟩
    exact ⟨member, listed⟩
  · rintro ⟨member, listed⟩
    exact ⟨_, member, p.row, listed, rfl⟩

-----------------------------------------------------------------------------------------
-- What composes over the steps of a history
-----------------------------------------------------------------------------------------

/-- Every step of a trigger run of the engine, whatever fails meanwhile, relates the rows before
it to those after it.
-/
def StepsRelate (e : Engine) (related : RowStore → RowStore → Prop) : Prop :=
  ∀ ⦃outage event entity schema p s status after⦄,
    e.catalog.get? entity = some schema
    → (p.property, p.formula) ∈ schema.formulaProperties
    → (e.suffering outage).PairStep event schema.name p s status after
    → related s.rows after.rows

section

variable {e : Engine} {related : RowStore → RowStore → Prop}
  (refl : ∀ rows, related rows rows)
  (trans : ∀ ⦃first second third⦄,
    related first second → related second third → related first third)
  (steps : e.StepsRelate related)

include refl trans steps

theorem PairRun.rows_related {outage : Outage} {event : LifecycleEvent} {entity : String}
    {schema : EntitySchema} {ps : List Pair} {s after : EngineState}
    {outcomes : List PairOutcome}
    (run : (e.suffering outage).PairRun event schema.name ps s outcomes after)
    (known : e.catalog.get? entity = some schema)
    (computed : ∀ p ∈ ps, (p.property, p.formula) ∈ schema.formulaProperties)
    : related s.rows after.rows := by
  induction run with
  | nil s => exact refl s.rows
  | @cons p rest s status middle outcomes after step others ih =>
      have first := steps known (computed p List.mem_cons_self) step
      exact trans first (ih fun q member => computed q (List.mem_cons_of_mem p member))

/-- A calculation leaves the rows as they are, and a trigger run changes them step by step.
-/
theorem answer_rows_related (s : EngineState) (call : EngineCall)
    : related s.rows (e.answer s call).2.rows := by
  obtain ⟨request, outage⟩ := call
  cases request with
  | calculate request => exact refl s.rows
  | trigger event entity rows =>
      simp only [answer, respond, trigger_eq, Catalog.entity, catalog_suffering]
      cases known : e.catalog.get? entity with
      | none => exact refl s.rows
      | some schema =>
          have run :=
            (e.suffering outage).processPairs_run event schema.name (pairs schema rows) s
          exact run.rows_related refl trans steps known fun p member =>
            (mem_pairs_iff.mp member).1

/-- What every step of a trigger run keeps, a history keeps, by induction on the calls. -/
theorem stateAfter_rows_related (calls : List EngineCall) (s : EngineState)
    : related s.rows (e.stateAfter calls s).rows := by
  induction calls generalizing s with
  | nil => exact refl s.rows
  | cons call rest ih =>
      have first := answer_rows_related refl trans steps s call
      exact trans first (ih (e.answer s call).2)

end

end Engine

end RowFormula
