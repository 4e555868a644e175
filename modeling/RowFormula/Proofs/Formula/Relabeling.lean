import RowFormula.Formula.Evaluation
import RowFormula.Proofs.Formula.Ordering
import RowFormula.Proofs.Outcome

/-! Components with other orders and other operands. As long as they are read in the same
sequence, and operands are exchanged for such as have the same values, everything that is made
of them is the same but for the orders and operands in it: the tree, its value, and the fault
that is reported.
-/

namespace RowFormula

/-- Another order for every order, and another operand for every operand. -/
structure Relabeling where
  order : UInt32 → UInt32
  operand : Operand → Operand := id

namespace Relabeling

def symbol (r : Relabeling) : Symbol → Symbol
  | .operand o => .operand (r.operand o)
  | other => other

def component (r : Relabeling) (c : Component) : Component :=
  ⟨r.order c.order, r.symbol c.symbol⟩

mutual

def node (r : Relabeling) : Node → Node
  | .operand order o => .operand (r.order order) (r.operand o)
  | .operator op => .operator op
  | .group children => .group (r.nodes children)

def nodes (r : Relabeling) : List Node → List Node
  | [] => []
  | first :: rest => r.node first :: r.nodes rest

end

/-- The open groups around nodes, with other orders and operands. -/
def opened (r : Relabeling) (outer : List (UInt32 × List Node)) : List (UInt32 × List Node) :=
  outer.map fun (order, before) => (r.order order, r.nodes before)

/-- A fault of the same kind that names the other order or component. -/
def fault (r : Relabeling) : SyntaxError → SyntaxError
  | .empty => .empty
  | .invalidFormula => .invalidFormula
  | .invalidComponent c => .invalidComponent (r.component c)
  | .unmatchedClose order => .unmatchedClose (r.order order)
  | .unterminatedGroup order => .unterminatedGroup (r.order order)
  | .danglingOperator op => .danglingOperator op
  | .duplicateOrder order => .duplicateOrder (r.order order)

def progress (r : Relabeling) (p : Progress) : Progress :=
  { p with unset := p.unset.map r.component }

/-- Every operand has the value that the operand in its place has. -/
def Preserves (r : Relabeling) (values others : Valuation) : Prop :=
  ∀ o, (r.operand o).value? others = o.value? values

/-- The orders keep their sequence, as far as components have them. -/
def Ascends (r : Relabeling) (cs : List Component) : Prop :=
  ∀ a ∈ cs, ∀ b ∈ cs, a.order < b.order → r.order a.order < r.order b.order

/-- A relabeling of orders alone changes nothing but the order of a component. -/
theorem component_of_order (order : UInt32 → UInt32) (c : Component)
    : component { order } c = { c with order := order c.order } := by
  obtain ⟨number, symbol⟩ := c
  cases symbol <;> rfl

@[simp] theorem nodes_append (r : Relabeling) (left right : List Node)
    : r.nodes (left ++ right) = r.nodes left ++ r.nodes right := by
  induction left with
  | nil => rfl
  | cons node rest ih => simp [nodes, ih]

variable (r : Relabeling)

-----------------------------------------------------------------------------------------
-- Matching parentheses
-----------------------------------------------------------------------------------------

/-- Matching parentheses looks at no order and at no operand, by induction on the components. -/
theorem close_relabeled (inner : List Node) (outer : List (UInt32 × List Node))
    (cs : List Component)
    : Node.close (r.nodes inner) (r.opened outer) (cs.map r.component)
      = ((Node.close inner outer cs).map r.nodes).mapError r.fault := by
  induction cs generalizing inner outer with
  | nil =>
      cases outer with
      | nil => rfl
      | cons entry outer => rfl
  | cons c rest ih =>
      obtain ⟨order, symbol⟩ := c
      cases symbol with
      | operand o =>
          have grown : r.nodes inner ++ [.operand (r.order order) (r.operand o)]
              = r.nodes (inner ++ [.operand order o]) := by simp [nodes, node]
          simp only [List.map_cons, component, Relabeling.symbol, Node.close, grown, ih]
      | operator op =>
          have grown : r.nodes inner ++ [.operator op]
              = r.nodes (inner ++ [.operator op]) := by simp [nodes, node]
          simp only [List.map_cons, component, Relabeling.symbol, Node.close, grown, ih]
      | opening =>
          simp only [List.map_cons, component, Relabeling.symbol, Node.close]
          exact ih [] ((order, inner) :: outer)
      | closing =>
          cases outer with
          | nil => rfl
          | cons entry outer =>
              obtain ⟨_, before⟩ := entry
              have grown : r.nodes before ++ [.group (r.nodes inner)]
                  = r.nodes (before ++ [.group inner]) := by simp [nodes, node]
              simp only [List.map_cons, component, Relabeling.symbol, Node.close, opened, grown]
              exact ih (before ++ [.group inner]) outer

-----------------------------------------------------------------------------------------
-- Evaluation
-----------------------------------------------------------------------------------------

theorem finish_relabeled (p : Progress)
    : (r.progress p).finish = p.finish.mapError r.fault := by
  obtain ⟨result, pending, operand, filled, operands, unset⟩ := p
  simp only [Progress.finish, progress]
  cases pending with
  | some op => cases filled <;> rfl
  | none =>
      by_cases several : 1 < operands
      · simp [several, fault]
      · cases operand <;> cases unset <;> simp [several, fault]

variable {values others : Valuation}

/-- What holds of the nodes of a group as they are read holds of the value of the group. -/
theorem evaluate_of_advanceAll {ns : List Node}
    (read
      : Node.advanceAll others (r.progress {}) (r.nodes ns)
        = ((Node.advanceAll values {} ns).map r.progress).mapError r.fault)
    : Node.evaluate others (r.nodes ns) = (Node.evaluate values ns).mapError r.fault := by
  have start : r.progress {} = {} := rfl
  rw [start] at read
  simp only [Node.evaluate, read]
  cases Node.advanceAll values {} ns with
  | error cause => rfl
  | ok p => exact r.finish_relabeled p

mutual

/-- Reading a node whose operands have the same values leads to the same progress. -/
theorem advance_relabeled (preserves : r.Preserves values others) (p : Progress) (n : Node)
    : Node.advance others (r.progress p) (r.node n)
      = ((Node.advance values p n).map r.progress).mapError r.fault := by
  cases n with
  | operand order o =>
      have same : (r.operand o).value? others = o.value? values := preserves o
      cases found : o.value? values with
      | some v =>
          rw [node, Node.advance_operand_of_some (same.trans found),
            Node.advance_operand_of_some found]
          rfl
      | none =>
          rw [node, Node.advance_operand_of_none (same.trans found),
            Node.advance_operand_of_none found]
          rfl
  | operator op => rfl
  | group children =>
      have inner := r.evaluate_of_advanceAll (advanceAll_relabeled preserves {} children)
      rw [node, Node.advance_group, Node.advance_group, inner]
      cases Node.evaluate values children <;> rfl

/-- Reading nodes whose operands have the same values leads to the same progress, by
induction on the nodes.
-/
theorem advanceAll_relabeled (preserves : r.Preserves values others) (p : Progress)
    (ns : List Node)
    : Node.advanceAll others (r.progress p) (r.nodes ns)
      = ((Node.advanceAll values p ns).map r.progress).mapError r.fault := by
  cases ns with
  | nil => rfl
  | cons first rest =>
      have head := advance_relabeled preserves p first
      rw [nodes, Node.advanceAll_cons, Node.advanceAll_cons, head]
      cases Node.advance values p first with
      | error cause => rfl
      | ok middle => exact advanceAll_relabeled preserves middle rest

end

theorem evaluate_relabeled (preserves : r.Preserves values others) (ns : List Node)
    : Node.evaluate others (r.nodes ns) = (Node.evaluate values ns).mapError r.fault :=
  r.evaluate_of_advanceAll (r.advanceAll_relabeled preserves {} ns)

/-- What components evaluate to that are read one after another. -/
theorem evaluate_close_relabeled (preserves : r.Preserves values others)
    (cs : List Component)
    : (Node.close [] [] (cs.map r.component)).bind (Node.evaluate others)
      = ((Node.close [] [] cs).bind (Node.evaluate values)).mapError r.fault := by
  have closed : Node.close [] [] (cs.map r.component)
      = ((Node.close [] [] cs).map r.nodes).mapError r.fault :=
    r.close_relabeled [] [] cs
  rw [closed]
  cases Node.close [] [] cs with
  | error cause => rfl
  | ok ns => exact r.evaluate_relabeled preserves ns

-----------------------------------------------------------------------------------------
-- Reading in ascending order
-----------------------------------------------------------------------------------------

section

variable {r} {cs : List Component} (ascends : r.Ascends cs) {a b : Component} (left : a ∈ cs)
  (right : b ∈ cs)

include ascends left right

theorem Ascends.order_eq_iff : r.order a.order = r.order b.order ↔ a.order = b.order := by
  constructor
  · intro same
    refine Decidable.byContradiction fun differ => UInt32.lt_irrefl (r.order b.order) ?_
    rcases UInt32.le_total a.order b.order with below | above
    · have less := ascends a left b right (UInt32.lt_of_le_of_ne below differ)
      exact same ▸ less
    · have less := ascends b right a left (UInt32.lt_of_le_of_ne above (Ne.symm differ))
      exact same ▸ less
  · exact congrArg r.order

theorem Ascends.order_le_iff : r.order a.order ≤ r.order b.order ↔ a.order ≤ b.order := by
  constructor
  · intro above
    refine UInt32.not_lt.mp fun less => ?_
    exact UInt32.not_lt.mpr above (ascends b right a left less)
  · intro above
    by_cases equal : a.order = b.order
    · exact UInt32.le_of_eq (congrArg r.order equal)
    · exact UInt32.le_of_lt (ascends a left b right (UInt32.lt_of_le_of_ne above equal))

end

section

variable {cs : List Component} (ascends : r.Ascends cs)

include ascends

theorem inOrder_relabeled : inOrder (cs.map r.component) = (inOrder cs).map r.component := by
  refine (List.map_mergeSort fun a left b right => ?_).symm
  exact decide_eq_decide.mpr (ascends.order_le_iff left right).symm

theorem sharedOrder?_relabeled
    : Node.sharedOrder? (cs.map r.component) = (Node.sharedOrder? cs).map r.order := by
  induction cs with
  | nil => rfl
  | cons first rest ih =>
      cases rest with
      | nil => rfl
      | cons second rest =>
          have later : r.Ascends (second :: rest) := fun a left b right =>
            ascends a (List.mem_cons_of_mem first left) b (List.mem_cons_of_mem first right)
          have same : r.order first.order = r.order second.order ↔ first.order = second.order :=
            ascends.order_eq_iff (by simp) (by simp)
          have behind := ih later
          simp only [List.map_cons] at behind
          simp only [List.map_cons, Node.sharedOrder?, component, same]
          split
          · rfl
          · exact behind

/-- The tree of a formula, or the fault that it has, is the same but for orders and operands.
-/
theorem ofComponents_relabeled
    : Node.ofComponents (cs.map r.component)
      = ((Node.ofComponents cs).map r.nodes).mapError r.fault := by
  have sorted : r.Ascends (inOrder cs) := fun a left b right =>
    ascends a ((inOrder_perm cs).mem_iff.mp left) b ((inOrder_perm cs).mem_iff.mp right)
  simp only [Node.ofComponents, r.inOrder_relabeled ascends, r.sharedOrder?_relabeled sorted,
    List.isEmpty_map]
  cases cs.isEmpty with
  | true => rfl
  | false =>
      cases Node.sharedOrder? (inOrder cs) with
      | some order => rfl
      | none => exact r.close_relabeled [] [] (inOrder cs)

end

/-- A formula whose orders keep their sequence, and whose operands have the same values, has the
same value or the same fault.
-/
theorem evaluate_formula_relabeled {f : Formula} (ascends : r.Ascends f.components)
    (preserves : r.Preserves values others)
    : Formula.evaluate { f with components := f.components.map r.component } others
      = (f.evaluate values).mapError r.fault := by
  simp only [Formula.evaluate, r.ofComponents_relabeled ascends]
  cases Node.ofComponents f.components with
  | error cause => rfl
  | ok ns =>
      have value := r.evaluate_relabeled preserves ns
      simp only [Except.map, Except.mapError_ok, Except.bind, value]
      cases Node.evaluate values ns <;> rfl

end Relabeling

end RowFormula
