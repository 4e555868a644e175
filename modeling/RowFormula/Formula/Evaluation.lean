import RowFormula.Formula.Node

/-! Evaluating formulas from left to right.

No operator binds tighter than another: each is applied to the result so far as soon as
the next one is read, and only parentheses change that order. A variable without a value
fills the place of an operand but gives no value.
-/

namespace RowFormula

/-- The values of variables by path; a variable may have none. -/
abbrev Valuation := String → Option Value

def Operand.value? (values : Valuation) : Operand → Option Value
  | var path => values path
  | literal v => some v

/-- What has been read of a group so far. -/
structure Progress where
  /-- The value of everything before the pending operator. -/
  result : Option Value := none
  /-- The operator read last, which waits for its right side. -/
  pending : Option Operator := none
  /-- The last value read since then. -/
  operand : Option Value := none
  /-- Whether an operand, with or without a value, was read since then. -/
  filled : Bool := false
  /-- The number of operands read in the group. -/
  operands : Nat := 0
  /-- The last variable read that has no value. -/
  unset : Option Component := none

namespace Progress

/-- Applies an operator to sides of which a missing one reads as null. A unary operator
takes null for its left side.
-/
def applied (op : Operator) (left right : Option Value) : Value :=
  op.apply (if op.isUnary then .null else left.getD .null) (right.getD .null)

def takeValue (p : Progress) (v : Value) : Progress :=
  { p with operand := some v, filled := true, operands := p.operands + 1 }

/-- Reads a variable that has no value; a value read before it is kept. -/
def takeUnset (p : Progress) (component : Component) : Progress :=
  { p with unset := some component, filled := true, operands := p.operands + 1 }

/-- The result after applying the pending operator, if there is one. -/
def settled (p : Progress) : Option Value :=
  match p.pending with
  | some op => some (applied op p.result p.operand)
  | none => p.operand

def takeOperator (p : Progress) (op : Operator) : Progress :=
  { p with result := p.settled, pending := some op, operand := none, filled := false }

/-- The value of a group that has been read to its end. -/
def finish (p : Progress) : Except SyntaxError Value :=
  match p.pending with
  | some op =>
    -- With an operator a missing side reads as null; only a side without any operand fails.
    if p.filled then .ok (applied op p.result p.operand) else .error (.danglingOperator op)
  | none =>
    -- Without an operator the group must be a single operand that has a value.
    if 1 < p.operands then .error .invalidFormula
    else
      match p.operand, p.unset with
      | some v, _ => .ok v
      | none, some component => .error (.invalidComponent component)
      | none, none => .error .invalidFormula

end Progress

namespace Node

mutual

/-- Reads one node of a group. A nested group is evaluated at once. -/
def advance (values : Valuation) (p : Progress) : Node → Except SyntaxError Progress
  | operand order o =>
    match o.value? values with
    | some v => .ok (p.takeValue v)
    | none => .ok (p.takeUnset ⟨order, .operand o⟩)
  | operator op => .ok (p.takeOperator op)
  | group children =>
    match advanceAll values {} children with
    | .ok inner => inner.finish.map p.takeValue
    | .error e => .error e

/-- Reads the nodes of a group one after another. -/
def advanceAll (values : Valuation) (p : Progress) : List Node → Except SyntaxError Progress
  | [] => .ok p
  | node :: rest =>
    match advance values p node with
    | .ok p => advanceAll values p rest
    | .error e => .error e

end

/-- The value of a group, not yet cast. -/
def evaluate (values : Valuation) (nodes : List Node) : Except SyntaxError Value :=
  (advanceAll values {} nodes).bind Progress.finish

/-- An operand that has a value fills its place with it. -/
theorem advance_operand_of_some {values : Valuation} {o : Operand} {v : Value}
    (found : o.value? values = some v) (p : Progress) (order : UInt32)
    : advance values p (.operand order o) = .ok (p.takeValue v) := by
  simp only [advance, found]

/-- An operand that has no value fills its place without one. -/
theorem advance_operand_of_none {values : Valuation} {o : Operand}
    (found : o.value? values = none) (p : Progress) (order : UInt32)
    : advance values p (.operand order o) = .ok (p.takeUnset ⟨order, .operand o⟩) := by
  simp only [advance, found]

/-- Reading an operand fills its place, whether or not it has a value. -/
theorem advance_operand_eq_ok {values : Valuation} {p q : Progress} {order : UInt32}
    {o : Operand} (advanced : advance values p (.operand order o) = .ok q)
    : (∃ v, o.value? values = some v ∧ q = p.takeValue v)
      ∨ o.value? values = none ∧ q = p.takeUnset ⟨order, .operand o⟩ := by
  cases found : o.value? values with
  | some v =>
      rw [advance_operand_of_some found] at advanced
      exact .inl ⟨v, rfl, (Except.ok.inj advanced).symm⟩
  | none =>
      rw [advance_operand_of_none found] at advanced
      exact .inr ⟨rfl, (Except.ok.inj advanced).symm⟩

/-- A nested group is read as an operand that has the value of the group. -/
theorem advance_group (values : Valuation) (p : Progress) (children : List Node)
    : advance values p (.group children) = (evaluate values children).map p.takeValue := by
  simp only [advance, evaluate]
  cases advanceAll values {} children <;> rfl

/-- Reading nodes is reading the first one and then the others. -/
theorem advanceAll_cons (values : Valuation) (p : Progress) (node : Node) (rest : List Node)
    : advanceAll values p (node :: rest)
      = (advance values p node).bind fun p => advanceAll values p rest := by
  simp only [advanceAll]
  cases advance values p node <;> rfl

end Node

/-- Evaluates a formula and casts the result to its declared type. -/
def Formula.evaluate (f : Formula) (values : Valuation) : Except SyntaxError Value :=
  (Node.ofComponents f.components).bind fun nodes =>
    (Node.evaluate values nodes).map f.resultAs.cast

end RowFormula
