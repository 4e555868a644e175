import RowFormula.Formula.Json
import RowFormula.Log.ExecutionLog

/-! Contexts and log entries as JSON. -/

namespace RowFormula

open Json

def TriggerContext.ofJson? (json : Json) : Option TriggerContext := do
  let r ← record?
    ["userId", "tenantId", "originalTrigger", "triggeredBy", "rowValueId"] json
  return {
    userId := ← r.optional "userId" toText?
    tenantId := ← r.optional "tenantId" toText?
    originalTrigger := ← r.optional "originalTrigger" CalculationTrigger.ofJson?
    triggeredBy := ← r.required "triggeredBy" toText?
    rowValueId := ← r.optional "rowValueId" toText? }

def NewLogEntry.ofJson? (json : Json) : Option NewLogEntry := do
  let r ← record?
    ["formulaId", "userId", "tenantId", "originalTrigger", "triggeredBy", "expression",
     "components", "rowValueId", "rowIds"] json
  return {
    formulaId := ← r.required "formulaId" toText?
    context := {
      userId := ← r.nullable "userId" toText?
      tenantId := ← r.nullable "tenantId" toText?
      originalTrigger := ← r.nullable "originalTrigger" CalculationTrigger.ofJson?
      triggeredBy := ← r.required "triggeredBy" toText?
      rowValueId := ← r.nullable "rowValueId" toText? }
    expression := ← r.required "expression" toText?
    components := ← r.required "components" (items? Component.ofJson?)
    rowIds := ← r.required "rowIds" (items? toText?) }

def LogCompletion.ofJson? (json : Json) : Option LogCompletion := do
  let r ← record? ["durationMs", "result", "error"] json
  return {
    duration := ← r.required "durationMs" (toNat? UInt64.size)
    result := ← r.nullable "result" Value.ofJson?
    error := ← r.nullable "error" toText? }

/-- The tree of an entry, without its duration. -/
def LogEntry.toJson (e : LogEntry) : Json :=
  let context := e.entry.context
  .object [
    ("id", .integer e.id),
    ("formulaId", .text e.entry.formulaId),
    ("userId", ofOption .text context.userId),
    ("tenantId", ofOption .text context.tenantId),
    ("originalTrigger",
      ofOption (fun t => .text t.name) context.originalTrigger),
    ("triggeredBy", .text context.triggeredBy),
    ("expression", .text e.entry.expression),
    ("components", .array (e.entry.components.map Component.toJson)),
    ("rowValueId", ofOption .text context.rowValueId),
    ("rowIds", .array (e.entry.rowIds.map .text)),
    ("result", ofOption Value.toJson e.result),
    ("error", ofOption .text e.error)]

end RowFormula
