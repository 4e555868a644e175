import RowFormula.Engine.Trigger
import RowFormula.Proofs.Variable.Reading

/-! Work that is done while nothing else happens. The state that one part of it leaves is the state
that the next part finds, so that what a calculation and a pair come to is put together from what
their calls come to.
-/

namespace RowFormula

namespace Work

variable {α β : Type} (e : Engine) (s : EngineState)

@[simp] theorem run_pure (result : α) : (Pure.pure result : Work α).run e s = (result, s) := rfl

@[simp] theorem run_ask (c : Call) : (ask c).run e s = e.perform c s := rfl

/-- Work in two parts, by induction on the first. -/
@[simp] theorem run_bind (w : Work α) (next : α → Work β)
    : (w >>= next).run e s = (next (w.run e s).1).run e (w.run e s).2 := by
  induction w generalizing s with
  | done result => rfl
  | call c answered ih => exact ih (e.perform c s).1 (e.perform c s).2

/-- The calls of a query change nothing, so that it finds what it finds in the rows as they are.
-/
@[simp] theorem run_ofQuery (q : Query α)
    : (ofQuery q).run e s = (q.against ⟨s.rows, e.outage⟩, s) := by
  induction q with
  | done outcome => rfl
  | visit rowId rest ih =>
      simp only [ofQuery, run_bind, run_pure, ih]
      rfl
  | ask c next ih => exact ih (RowAccess.answer ⟨s.rows, e.outage⟩ c)

/-- A write whose two calls follow each other is one write to the rows. -/
theorem run_write (w : WriteRecord)
    : (write w).run e s
      = match RowAccess.writeProperty ⟨s.rows, e.outage⟩ w.entity w.row w.property w.slots with
        | .ok rows => (.ok (), { s with rows })
        | .error cause => (.error cause, s) := by
  simp only [write, run_bind, run_ask e s (.setValue w), Engine.perform, RowAccess.beginWrite,
    RowAccess.writeProperty, RowAccess.guarded, RowStore.writeProperty]
  cases e.outage (.writeProperty w.entity w.row w.property w.slots) with
  | some reason => rfl
  | none => cases s.rows.setValue w.entity w.row w.property w.slots.toValue <;> rfl

/-- Workers that take no turns are finished one after another. -/
@[simp] theorem interleave_nil (workers : List (Work α))
    : interleave e [] workers s = runAll e workers s :=
  rfl

end Work

namespace Engine

variable (e : Engine) (request : CalculationRequest) (s : EngineState)

/-- A calculation resolves the variables against the rows that it finds and then makes its two
calls to the log.
-/
theorem run_calculation
    : (e.calculation request).run e s
      = let f := request.formula
        let resolved := (e.resolver f s.rows).resolveAll f request.bindings
        let trace := traceOf f resolved
        let outcome := valueOf f resolved
        let (logId, log) := e.beginEntry request trace s.log
        let result := outcome.map fun value =>
          { value, expression := trace.text e.config.unsetDisplay, rowIds := trace.rowIds, logId }
        (result, { s with log := e.completeEntry logId outcome log }) := by
  rw [calculation, Work.run_bind, Work.run_ofQuery]
  rfl

/-- A calculation changes nothing but the log. -/
theorem run_calculation_eq
    : (e.calculation request).run e s
      = ((e.calculate request s).1, { s with log := (e.calculate request s).2 }) := by
  unfold calculate
  rw [run_calculation]

section

variable (event : LifecycleEvent) (entity : String)

/-- Workers that do their work one after another process their pairs one after another. -/
theorem runAll_pairWork (pairs : List Pair)
    : Work.runAll e (pairs.map (e.pairWork event entity)) s
      = e.processPairs event entity pairs s := by
  induction pairs generalizing s with
  | nil => rfl
  | cons p rest ih =>
      simp only [List.map_cons, Work.runAll, ih]
      rfl

/-- Without a schedule pairs are processed one after another, also where the engine may work in
parallel.
-/
theorem fanOut_nil (pairs : List Pair)
    : e.fanOut event entity pairs [] s = e.processPairs event entity pairs s := by
  rw [fanOut]
  split
  · rw [Work.interleave_nil, runAll_pairWork]
  · rfl

theorem fanOut_of_sequential (sequential : e.config.parallel = false) (pairs : List Pair)
    (schedule : List Nat)
    : e.fanOut event entity pairs schedule s = e.processPairs event entity pairs s := by
  simp only [fanOut, sequential, Bool.false_eq_true, if_false]

theorem trigger_eq (rows : List String)
    : e.trigger event entity rows s
      = match e.catalog.entity entity with
        | .error cause => ({ event, entity, outcomes := [], error := some cause.message }, s)
        | .ok schema =>
          let (outcomes, s) := e.processPairs event schema.name (pairs schema rows) s
          ({ event, entity := schema.name, outcomes }, s) := by
  unfold trigger
  cases e.catalog.entity entity with
  | error cause => rfl
  | ok schema => simp only [fanOut_nil]

/-- A schedule has no part in the runs of an engine that works in sequence. -/
theorem trigger_of_sequential (sequential : e.config.parallel = false) (rows : List String)
    (schedule : List Nat)
    : e.trigger event entity rows s schedule = e.trigger event entity rows s := by
  simp only [trigger, fanOut_of_sequential e s event _ sequential]

-- In parallel a schedule has a part: a property that copies another one copies what is stored when
-- it is its turn to read.
example
    : let holding : Formula :=
        { id := "f", resultAs := .boolean, trigger := .always
          components := [⟨0, .operand (.literal (.bool true))⟩] }
      let copying : Formula :=
        { id := "g", resultAs := .boolean, trigger := .always
          components := [⟨0, .operand (.var "row.task.done")⟩] }
      let schema : EntitySchema :=
        { name := "task"
          properties := [
            { name := "done", formula := some holding },
            { name := "copy", formula := some copying }] }
      let e : Engine := { catalog := .ofSchemas [schema] }
      let s : EngineState := { rows := ({} : RowStore).insertRow "task" "r" 0 }
      let copied (schedule : List Nat) : Option Value :=
        (e.trigger .afterCreated "task" ["r"] s schedule).1.value? "copy" "r"
      (copied []).map Value.isNull = some false ∧ (copied [1, 1]).map Value.isNull = some true := by
  decide +kernel

end

end Engine

end RowFormula
