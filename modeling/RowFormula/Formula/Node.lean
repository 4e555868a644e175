import RowFormula.Formula.Basic

/-! Formulas with their parentheses matched: trees of operands, operators and groups. -/

namespace RowFormula

/-- Why a formula cannot be evaluated. -/
inductive SyntaxError where
  /-- There are no components. -/
  | empty
  /-- A group has several operands without an operator, or none at all. -/
  | invalidFormula
  /-- A group consists of a variable that has no value. -/
  | invalidComponent (component : Component)
  /-- A parenthesis is closed that was not opened. -/
  | unmatchedClose (order : UInt32)
  /-- A parenthesis is opened and not closed. -/
  | unterminatedGroup (order : UInt32)
  /-- A group ends in an operator. -/
  | danglingOperator (op : Operator)
  /-- Several components have the same order. -/
  | duplicateOrder (order : UInt32)

def SyntaxError.message : SyntaxError → String
  | empty => "Invalid formula: it has no components"
  | invalidFormula => "Invalid formula"
  | invalidComponent c => "Invalid formula component " ++ c.describe
  | unmatchedClose order =>
    "Closing parenthesis at order " ++ toString order.toNat
      ++ " has no matching opening parenthesis"
  | unterminatedGroup order =>
    "Opening parenthesis at order " ++ toString order.toNat ++ " is never closed"
  | danglingOperator op => "Operator '" ++ op.symbol ++ "' has no operand to its right"
  | duplicateOrder order => "More than one component uses order " ++ toString order.toNat

/-- A node of a matched formula. An operand keeps the order of its component. -/
inductive Node where
  | operand (order : UInt32) (operand : Operand)
  | operator (op : Operator)
  | group (children : List Node)
  deriving Inhabited

namespace Node

/-- The first order that two neighbours share. -/
def sharedOrder? : List Component → Option UInt32
  | a :: b :: rest => if a.order = b.order then some a.order else sharedOrder? (b :: rest)
  | _ => none

/-- Matches parentheses. `nodes` is what the innermost open group holds so far, and
`outer` lists the groups around it, innermost first: for each the order of the parenthesis
that opened the group inside it, and the nodes before that parenthesis.
-/
def close (nodes : List Node) (outer : List (UInt32 × List Node))
    : List Component → Except SyntaxError (List Node)
  | [] =>
    match outer with
    | [] => .ok nodes
    | (order, _) :: _ => .error (.unterminatedGroup order)
  | c :: rest =>
    match c.symbol with
    | .operand o => close (nodes ++ [.operand c.order o]) outer rest
    | .operator op => close (nodes ++ [.operator op]) outer rest
    | .opening => close [] ((c.order, nodes) :: outer) rest
    | .closing =>
      match outer with
      | [] => .error (.unmatchedClose c.order)
      | (_, before) :: outer => close (before ++ [.group nodes]) outer rest

/-- The tree of a formula's components. Orders must be distinct and parentheses matched;
the first fault in reading order is reported.
-/
def ofComponents (components : List Component) : Except SyntaxError (List Node) :=
  let sorted := inOrder components
  if components.isEmpty then .error .empty
  else
    -- Sorting has brought equal orders together.
    match sharedOrder? sorted with
    | some order => .error (.duplicateOrder order)
    | none => close [] [] sorted

mutual

def depth : Node → Nat
  | group children => 1 + depthOf children
  | _ => 0

def depthOf : List Node → Nat
  | [] => 0
  | node :: rest => max node.depth (depthOf rest)

end

end Node

end RowFormula
