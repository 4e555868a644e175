import RowFormula.Json.Table
import RowFormula.Value.Json

/-! What the first segment of a variable's path stands for. -/

namespace RowFormula

/-- A binding: a single value, or a row from which variables are read. -/
inductive VariableBinding where
  | plain (slots : ValueSlots)
  | row (entity item : String)

abbrev VariableBindings := Table String VariableBinding

/-- The bindings of a property's formula: its row, under the name `row`. -/
def VariableBindings.ofRow (entity item : String) : VariableBindings :=
  .ofList [("row", .row entity item)]

/-- The binding that a tree holds: a record tagged with its kind, none of whose parts may
be unreadable.
-/
def VariableBinding.ofJson? (json : Json) : Option VariableBinding := do
  guard json.isReadable
  let (kind, body) ← Json.tagged? "kind" json
  match kind with
  | "plain" => (ValueSlots.ofJson? body).map plain
  | "row" =>
    let r ← Json.record? ["entity", "item"] body
    return row (← r.required "entity" Json.toText?) (← r.required "item" Json.toText?)
  | _ => none

def VariableBinding.toJson : VariableBinding → Json
  | plain slots =>
    match slots.toJson with
    | .object fields => .object (("kind", .text "plain") :: fields)
    | other => other
  | row entity item =>
    .object [("kind", .text "row"), ("entity", .text entity), ("item", .text item)]

def VariableBindings.ofJson? : Json → Option VariableBindings :=
  Table.ofJson? VariableBinding.ofJson?

def VariableBindings.toJson : VariableBindings → Json :=
  Table.toJson VariableBinding.toJson

end RowFormula
