import RowFormula.Formula.Basic
import RowFormula.Value.Json

/-! Formulas as JSON. -/

namespace RowFormula

def CalculationTrigger.ofJson? : Json → Option CalculationTrigger :=
  Json.choice? false CalculationTrigger.ofName?

def Operator.ofJson? : Json → Option Operator :=
  Json.choice? false Operator.ofName?

def Symbol.parenthesis? : String → Option Symbol
  | "OPEN" => some .opening
  | "CLOSE" => some .closing
  | _ => none

/-- Reads the value of a component, given the component's type. -/
def Symbol.ofJson? (type : String) (json : Json) : Option Symbol :=
  match type with
  | "variable" => json.toText?.map fun path => .operand (.var path)
  | "value" => (Value.ofJson? json).map fun v => .operand (.literal v)
  | "operator" => (Json.choice? true Operator.ofName? json).map .operator
  | "parenthesis" => Json.choice? true Symbol.parenthesis? json
  | _ => none

/-- The component that a tree holds: a record tagged with its type, none of whose parts
may be unreadable.
-/
def Component.ofJson? (json : Json) : Option Component := do
  guard json.isReadable
  let (type, body) ← Json.tagged? "type" json
  let r ← Json.record? ["order", "value"] body
  let order ← r.required "order" (Json.toNat? UInt32.size)
  return { order := .ofNat order, symbol := ← r.required "value" (Symbol.ofJson? type) }

/-- The type and the value of a symbol. -/
def Symbol.toJson : Symbol → String × Json
  | operand (.var path) => ("variable", .text path)
  | operand (.literal v) => ("value", v.toJson)
  | operator op => ("operator", .text op.name)
  | opening => ("parenthesis", .text "OPEN")
  | closing => ("parenthesis", .text "CLOSE")

def Component.toJson (c : Component) : Json :=
  let (type, value) := c.symbol.toJson
  .object [("type", .text type), ("order", .integer c.order.toNat), ("value", value)]

def Formula.ofJson? (json : Json) : Option Formula := do
  let r ← Json.record? ["id", "resultAs", "calculationTrigger", "withLogs", "components"] json
  return {
    id := ← r.required "id" Json.toText?
    resultAs := ← r.defaulted "resultAs" ResultType.ofJson? .number
    trigger := ← r.defaulted "calculationTrigger" CalculationTrigger.ofJson? .never
    withLogs := ← r.defaulted "withLogs" Json.toBool? false
    components := ← r.required "components" (Json.items? Component.ofJson?) }

def Formula.toJson (f : Formula) : Json :=
  .object [
    ("id", .text f.id),
    ("resultAs", .text f.resultAs.name),
    ("calculationTrigger", .text f.trigger.name),
    ("withLogs", .bool f.withLogs),
    ("components", .array (f.components.map Component.toJson))]

end RowFormula
