import RowFormula.Formula.Evaluation

/-! The expression of an evaluation, with the values that its variables had. -/

namespace RowFormula

/-- A symbol of an evaluated formula. A variable carries the value it had, if any. -/
inductive TraceToken where
  | var (path : String) (value : Option Value)
  | literal (value : Value)
  | operator (op : Operator)
  | opening
  | closing

/-- The symbols of an evaluated formula, and the rows that its variables were read from.
-/
structure ExpressionTrace where
  tokens : List TraceToken
  rowIds : List String

def TraceToken.ofSymbol (values : Valuation) : Symbol → TraceToken
  | .operand (.var path) => .var path (values path)
  | .operand (.literal v) => .literal v
  | .operator op => .operator op
  | .opening => .opening
  | .closing => .closing

/-- The trace of components in reading order. -/
def ExpressionTrace.build (components : List Component) (values : Valuation)
    (rowIds : List String) : ExpressionTrace :=
  { tokens := (inOrder components).map fun c => .ofSymbol values c.symbol, rowIds }

namespace Value

mutual

/-- The text of a value in a trace: texts are quoted and lists bracketed. -/
def traceText : Value → String
  | text s => "\"" ++ s ++ "\""
  | list items => "[" ++ String.intercalate ", " (traceTexts items) ++ "]"
  | v => v.toText

def traceTexts : List Value → List String
  | [] => []
  | item :: rest => item.traceText :: traceTexts rest

end

end Value

/-- The text of a symbol in a trace. `unset` stands for the value of a variable that has
none.
-/
def TraceToken.text (unset : String) : TraceToken → String
  | var path value => path ++ " (was " ++ (value.map Value.traceText).getD unset ++ ")"
  | literal v => v.traceText
  | operator op => op.symbol
  | opening => "("
  | closing => ")"

def ExpressionTrace.text (t : ExpressionTrace) (unset : String) : String :=
  String.intercalate " " (t.tokens.map (TraceToken.text unset))

end RowFormula
