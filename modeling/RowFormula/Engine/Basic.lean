import RowFormula.Engine.Config
import RowFormula.Log.ExecutionLog
import RowFormula.Rows.Access
import RowFormula.Variable.Binding
import RowFormula.Variable.Error

/-! An engine, what it works on, and how it records an evaluation. Failing to record it never
fails the calculation.
-/

namespace RowFormula

/-- Why a calculation fails. -/
inductive CalculationError where
  | malformed (cause : SyntaxError)
  | unresolved (cause : ResolutionError)

def CalculationError.message : CalculationError → String
  | malformed cause => "Formula syntax error: " ++ cause.message
  | unresolved cause => "Variable resolution error: " ++ cause.message

/-- An engine's access to a log. -/
inductive LogAccess where
  /-- There is no log. -/
  | absent
  | working
  /-- Entries cannot be created. -/
  | createFails
  /-- Entries are created but cannot be completed. -/
  | updateFails
  deriving Repr, DecidableEq

/-- An engine over schemas and rows. -/
structure Engine where
  catalog : Catalog
  /-- The calls to the row store that fail. -/
  outage : Outage := .none
  logAccess : LogAccess := .absent
  config : EngineConfig := {}
  /-- The duration recorded for an evaluation, in milliseconds. -/
  elapsed : Nat := 0

/-- What an engine's work changes. -/
structure EngineState where
  rows : RowStore := {}
  log : ExecutionLog := .empty

/-- A request to calculate a formula. -/
structure CalculationRequest where
  formula : Formula
  bindings : VariableBindings
  context : TriggerContext := {}
  /-- Whether this is a preview, which is never recorded. -/
  debug : Bool := false

/-- The outcome of a calculation. -/
structure EndResult where
  /-- The result, cast to the formula's declared type. -/
  value : Value
  /-- The expression with the values of its variables. -/
  expression : String
  /-- The rows read for the formula's variables. -/
  rowIds : List String
  /-- The log entry, if one was created. -/
  logId : Option Nat

namespace Engine

def records (e : Engine) (request : CalculationRequest) : Bool :=
  e.logAccess ≠ .absent && request.formula.withLogs && !request.debug

/-- Creates the log entry of an evaluation, if it is recorded. -/
def beginEntry (e : Engine) (request : CalculationRequest) (trace : ExpressionTrace)
    (log : ExecutionLog) : Option Nat × ExecutionLog :=
  if e.records request && e.logAccess ≠ .createFails then
    let (id, log) := log.create {
      formulaId := request.formula.id
      context := request.context
      expression := trace.text e.config.unsetDisplay
      components := request.formula.components
      rowIds := trace.rowIds }
    (some id, log)
  else (none, log)

/-- Completes the log entry of an evaluation, if one was created. -/
def completeEntry (e : Engine) (id : Option Nat) (outcome : Except CalculationError Value)
    (log : ExecutionLog) : ExecutionLog :=
  match id, e.logAccess with
  | some id, .working =>
    let completion : LogCompletion := match outcome with
      | .ok v => { duration := e.elapsed, result := some v, error := none }
      | .error cause => { duration := e.elapsed, result := none, error := some cause.message }
    match log.update id completion with
    | .ok log => log
    | .error _ => log
  | _, _ => log

end Engine

end RowFormula
