import RowFormula.Engine.Work

/-! Calculating a formula: its variables are resolved, its expression is evaluated, and
the run is recorded.
-/

namespace RowFormula

namespace Engine

def scope (e : Engine) (f : Formula) : VariableScope :=
  { catalog := e.catalog, resultAs := f.resultAs }

def resolver (e : Engine) (f : Formula) (rows : RowStore) : VariableResolver :=
  { e.scope f with rows := ⟨rows, e.outage⟩ }

/-- The trace of an evaluation. When the variables could not be resolved, none has a value
and no row is listed.
-/
def traceOf (f : Formula) (resolved : Except ResolutionError VariableResolver.ResolvedValues)
    : ExpressionTrace :=
  match resolved with
  | .ok r => .build f.components r.values.get? r.rowIds
  | .error _ => .build f.components (fun _ => none) []

/-- The value of a formula whose variables were resolved. -/
def valueOf (f : Formula) (resolved : Except ResolutionError VariableResolver.ResolvedValues)
    : Except CalculationError Value :=
  match resolved with
  | .ok r => (f.evaluate r.values.get?).mapError .malformed
  | .error cause => .error (.unresolved cause)

/-- Calculates a formula. -/
def calculation (e : Engine) (request : CalculationRequest)
    : Work (Except CalculationError EndResult) := do
  let f := request.formula
  let found ← Work.ofQuery ((e.scope f).lookUpAll f.variablePaths request.bindings)
  let resolved := found.resolved
  let trace := traceOf f resolved
  let outcome := valueOf f resolved
  -- The entry exists whether or not the evaluation succeeds, and is completed by either.
  let logId ← Work.ask (.beginEntry request trace)
  Work.ask (.completeEntry logId outcome)
  return outcome.map fun value =>
    { value, expression := trace.text e.config.unsetDisplay, rowIds := trace.rowIds, logId }

/-- Calculates a formula while nothing else happens. Rows are only read; the log may gain an
entry.
-/
def calculate (e : Engine) (request : CalculationRequest) (s : EngineState)
    : Except CalculationError EndResult × ExecutionLog :=
  let (result, s) := (e.calculation request).run e s
  (result, s.log)

end Engine

end RowFormula
