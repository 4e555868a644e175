import RowFormula.Operator
import RowFormula.Value.Slots

/-! Formulas: ordered components, and when the property they belong to is recomputed. -/

namespace RowFormula

/-- When a property with a formula is recomputed. -/
inductive CalculationTrigger where
  | always
  | never
  | ifUnset
  | beforeListed
  | afterCreated
  | beforeViewed
  | afterUpdated
  deriving Repr, DecidableEq

namespace CalculationTrigger

def name : CalculationTrigger → String
  | always => "ALWAYS"
  | never => "NEVER"
  | ifUnset => "IF_UNSET"
  | beforeListed => "BEFORE_LISTED"
  | afterCreated => "AFTER_CREATED"
  | beforeViewed => "BEFORE_VIEWED"
  | afterUpdated => "AFTER_UPDATED"

def ofName? : String → Option CalculationTrigger
  | "ALWAYS" => some always
  | "NEVER" => some never
  | "IF_UNSET" => some ifUnset
  | "BEFORE_LISTED" => some beforeListed
  | "AFTER_CREATED" => some afterCreated
  | "BEFORE_VIEWED" => some beforeViewed
  | "AFTER_UPDATED" => some afterUpdated
  | _ => none

end CalculationTrigger

/-- What an operator applies to: a variable, by its path, or a fixed value. -/
inductive Operand where
  | var (path : String)
  | literal (value : Value)
  deriving Inhabited

/-- A symbol of a formula: an operand, an operator or a parenthesis. -/
inductive Symbol where
  | operand (operand : Operand)
  | operator (op : Operator)
  | opening
  | closing
  deriving Inhabited

/-- A symbol with its place in the formula. Symbols are read in ascending order. -/
structure Component where
  order : UInt32
  symbol : Symbol
  deriving Inhabited

def Component.describe (c : Component) : String :=
  let what := match c.symbol with
    | .operand (.var path) => "variable " ++ path
    | .operand (.literal value) => "value " ++ value.toText
    | .operator op => "operator " ++ op.symbol
    | .opening => "parenthesis ("
    | .closing => "parenthesis )"
  "#" ++ toString c.order.toNat ++ " (" ++ what ++ ")"

def Component.path? (c : Component) : Option String :=
  match c.symbol with
  | .operand (.var path) => some path
  | _ => none

/-- Components in ascending order; those with equal orders keep the order in which they
are stored.
-/
def inOrder (components : List Component) : List Component :=
  components.mergeSort fun a b => a.order ≤ b.order

/-- A formula. -/
structure Formula where
  id : String
  resultAs : ResultType := .number
  trigger : CalculationTrigger := .never
  /-- Whether evaluations are recorded in the execution log. -/
  withLogs : Bool := false
  components : List Component

/-- Symbols numbered from zero as they come. -/
def Component.number (symbols : List Symbol) : List Component :=
  symbols.zipIdx.map fun (symbol, i) => ⟨.ofNat i, symbol⟩

/-- The formula whose symbols are read in the order given. -/
def Formula.ofSymbols (id : String) (symbols : List Symbol) : Formula :=
  { id, components := Component.number symbols }

/-- The distinct paths of a formula's variables, in the order in which they are first
read.
-/
def Formula.variablePaths (f : Formula) : List String :=
  ((inOrder f.components).filterMap Component.path?).eraseDups

end RowFormula
