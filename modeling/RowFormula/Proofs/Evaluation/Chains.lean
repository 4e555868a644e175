import RowFormula.Proofs.Evaluation.Grouping

/-! Chains of one operator in which parentheses do not matter. Such an operator reads both sides as
parts and writes the joined part, so that the value of a tree is written from the parts of its
leaves, joined from left to right.
-/

namespace RowFormula

/-- The values of the operands among symbols, from left to right. -/
def Symbol.leaves (values : Valuation) : List Symbol → List Value
  | [] => []
  | .operand o :: rest => (o.value? values).toList ++ leaves values rest
  | .operator _ :: rest | .opening :: rest | .closing :: rest => leaves values rest

theorem Symbol.leaves_append (values : Valuation) (left right : List Symbol)
    : leaves values (left ++ right) = leaves values left ++ leaves values right := by
  induction left with
  | nil => rfl
  | cons symbol rest ih => cases symbol <;> simp [leaves, ih]

-----------------------------------------------------------------------------------------
-- Operators that join parts
-----------------------------------------------------------------------------------------

/-- How an operator joins its sides: each is read as a part, and the joined part is written as a
value. What was written is read again as it is.
-/
structure Operator.Joining (op : Operator) (α : Type) where
  read : Value → α
  write : α → Value
  join : α → α → α
  empty : α
  binary : op.isUnary = false
  apply_eq : ∀ left right, op.apply left right = write (join (read left) (read right))
  read_write : ∀ part, read (write part) = part
  assoc : ∀ a b c, join (join a b) c = join a (join b c)
  empty_join : ∀ a, join empty a = a
  join_empty : ∀ a, join a empty = a

namespace Operator.Joining

/-- "Concat" reads texts, and null as the empty text. -/
def concat : Joining .concat String where
  read := part
  write := .text
  join := (· ++ ·)
  empty := ""
  binary := rfl
  apply_eq _ _ := rfl
  read_write _ := by rw [part, Value.toText]; rfl
  assoc _ _ _ := String.append_assoc
  empty_join _ := String.empty_append
  join_empty _ := String.append_empty

/-- "And" reads truth values, and the text `false` as one that does not hold. -/
def and : Joining .and Bool where
  read := holdsInAnd
  write := .bool
  join := (· && ·)
  empty := true
  binary := rfl
  apply_eq _ _ := rfl
  read_write _ := rfl
  assoc := Bool.and_assoc
  empty_join := Bool.true_and
  join_empty := Bool.and_true

/-- "Or" reads truth values. -/
def or : Joining .or Bool where
  read := Value.isTruthy
  write := .bool
  join := (· || ·)
  empty := false
  binary := rfl
  apply_eq _ _ := rfl
  read_write _ := rfl
  assoc := Bool.or_assoc
  empty_join := Bool.false_or
  join_empty := Bool.or_false

variable {op : Operator} {α : Type} (j : op.Joining α)

/-- The parts of values joined from left to right. -/
def joined (leaves : List Value) : α :=
  (leaves.map j.read).foldr j.join j.empty

theorem joined_append (left right : List Value)
    : j.joined (left ++ right) = j.join (j.joined left) (j.joined right) := by
  induction left with
  | nil => exact (j.empty_join _).symm
  | cons leaf rest ih =>
      change j.join (j.read leaf) (j.joined (rest ++ right))
        = j.join (j.join (j.read leaf) (j.joined rest)) (j.joined right)
      rw [ih, j.assoc]

/-- A value stands for symbols: it is read as the joined parts of their operands, and it is
written from them as soon as there is an operator.
-/
structure StandsFor (values : Valuation) (symbols : List Symbol) (v : Value) : Prop where
  read : j.read v = j.joined (Symbol.leaves values symbols)
  written : .operator op ∈ symbols → v = j.write (j.joined (Symbol.leaves values symbols))

variable {j} {values : Valuation}

theorem StandsFor.operand {o : Operand} {v : Value} (found : o.value? values = some v)
    : j.StandsFor values [.operand o] v where
  read := by
    rw [Symbol.leaves, found]
    exact (j.join_empty _).symm
  written := fun occurs => nomatch List.mem_singleton.mp occurs

/-- Parentheses have no value and are no operators. -/
theorem StandsFor.group {symbols : List Symbol} {v : Value}
    (stands : j.StandsFor values symbols v)
    : j.StandsFor values (Symbol.opening :: symbols ++ [.closing]) v := by
  have leaves : Symbol.leaves values (Symbol.opening :: symbols ++ [.closing])
      = Symbol.leaves values symbols := by
    rw [List.cons_append, Symbol.leaves, Symbol.leaves_append]
    exact List.append_nil _
  refine ⟨leaves ▸ stands.read, fun occurs => leaves ▸ stands.written ?_⟩
  simpa using occurs

/-- Applying the operator joins what the sides stand for. -/
theorem StandsFor.apply {before after : List Symbol} {left right : Value}
    (first : j.StandsFor values before left) (second : j.StandsFor values after right)
    : j.StandsFor values (before ++ .operator op :: after) (op.apply left right) := by
  have written : op.apply left right
      = j.write (j.joined (Symbol.leaves values (before ++ .operator op :: after))) := by
    rw [j.apply_eq, first.read, second.read, Symbol.leaves_append, Symbol.leaves,
      j.joined_append]
  exact ⟨by rw [written, j.read_write], fun _ => written⟩

end Operator.Joining

-----------------------------------------------------------------------------------------
-- Chains
-----------------------------------------------------------------------------------------

namespace Node

/-- Operands and operators take turns, from an operand to an operand. -/
inductive Alternates : List Node → Prop
  | single {node : Node} (operand : node.operator? = none) : Alternates [node]
  | applied {before : List Node} {node : Node} (earlier : Alternates before) (op : Operator)
    (operand : node.operator? = none)
    : Alternates (before ++ [.operator op, node])

/-- Operands and operators take turns in every group of a tree, all its operators are the same one
and all its variables have values.
-/
structure Chain (op : Operator) (values : Valuation) (nodes : List Node) : Prop where
  alternates : ∀ group ∈ groups nodes, Alternates group
  operators : ∀ other, .operator other ∈ flatten nodes → other = op
  set : ∀ path, .operand (.var path) ∈ flatten nodes → (values path).isSome

variable {op : Operator} {values : Valuation}

theorem Chain.of_mem {nodes children : List Node} (chain : Chain op values nodes)
    (member : .group children ∈ nodes)
    : Chain op values children where
  alternates := fun group closed => chain.alternates group (groups_of_mem member closed)
  operators := fun other occurs => chain.operators other (flatten_of_mem member occurs)
  set := fun path occurs => chain.set path (flatten_of_mem member occurs)

theorem evaluate_single {node : Node} {v : Value}
    (reads : ∀ p, advance values p node = .ok (p.takeValue v))
    : evaluate values [node] = .ok v := by
  rw [evaluate, advanceAll_cons, reads]
  rfl

/-- One more operator is applied to the value of what stands before it. -/
theorem evaluate_applied {before : List Node} {node : Node} {left right : Value}
    (binary : op.isUnary = false) (evaluated : evaluate values before = .ok left)
    (reads : ∀ p, advance values p node = .ok (p.takeValue right))
    : evaluate values (before ++ [.operator op, node]) = .ok (op.apply left right) := by
  have applied : (((Progress.takeValue {} left).takeOperator op).takeValue right).finish
      = .ok (op.apply left right) := by
    simp [Progress.finish, Progress.takeOperator, Progress.takeValue, Progress.settled,
      Progress.applied, binary]
  rw [evaluate_append evaluated (.inr ⟨op, _, rfl⟩), evaluate, advanceAll_cons, advance_group,
    evaluated]
  change (advanceAll values ((Progress.takeValue {} left).takeOperator op) [node]).bind _ = _
  rw [advanceAll_cons, reads]
  exact applied

section

variable {α : Type} (j : op.Joining α)

/-- An alternating group of operands that have values has the value of its leaves, by induction on
the operators.
-/
theorem Alternates.standsFor {nodes : List Node} (alternates : Alternates nodes)
    (operators : ∀ other, .operator other ∈ nodes → other = op)
    (operands
      : ∀ node ∈ nodes,
          node.operator? = none
          → ∃ v,
              (∀ p, advance values p node = .ok (p.takeValue v))
              ∧ j.StandsFor values node.symbols v)
    : ∃ v, evaluate values nodes = .ok v ∧ j.StandsFor values (flatten nodes) v := by
  induction alternates with
  | @single node operand =>
      obtain ⟨v, reads, stands⟩ := operands node List.mem_cons_self operand
      have symbols : flatten [node] = node.symbols := List.append_nil _
      exact ⟨v, evaluate_single reads, symbols ▸ stands⟩
  | @applied before node earlier other operand ih =>
      obtain rfl := operators other (by simp)
      obtain ⟨left, evaluated, first⟩ :=
        ih (fun other member => operators other (List.mem_append_left _ member))
          (fun node member => operands node (List.mem_append_left _ member))
      obtain ⟨right, reads, second⟩ := operands node (by simp) operand
      have symbols : flatten (before ++ [.operator other, node])
          = flatten before ++ .operator other :: node.symbols := by
        simp [flatten, Node.symbols]
      exact ⟨_, evaluate_applied j.binary evaluated reads, symbols ▸ first.apply second⟩

/-- A chain has a value that stands for its symbols, by induction on the trees in it. -/
theorem Chain.standsFor {nodes : List Node} (chain : Chain op values nodes)
    : ∃ v, evaluate values nodes = .ok v ∧ j.StandsFor values (flatten nodes) v := by
  induction nodes using induction_on_groups with
  | step nodes ih =>
      refine (chain.alternates nodes (self_mem_groups nodes)).standsFor j ?_ ?_
      · intro other member
        exact chain.operators other (symbols_subset_flatten member List.mem_cons_self)
      · intro node member operand
        cases node with
        | operator other => exact nomatch operand
        | operand order o =>
            have set : ∃ v, o.value? values = some v := by
              cases o with
              | literal v => exact ⟨v, rfl⟩
              | var path =>
                  have occurs := symbols_subset_flatten member List.mem_cons_self
                  exact Option.isSome_iff_exists.mp (chain.set path occurs)
            obtain ⟨v, found⟩ := set
            exact ⟨v, fun p => advance_operand_of_some found p order, .operand found⟩
        | group children =>
            obtain ⟨v, evaluated, stands⟩ := ih children member (chain.of_mem member)
            refine ⟨v, fun p => ?_, stands.group⟩
            rw [advance_group, evaluated]
            rfl

theorem Chain.evaluate_eq {nodes : List Node} (chain : Chain op values nodes)
    (occurs : .operator op ∈ flatten nodes)
    : evaluate values nodes = .ok (j.write (j.joined (Symbol.leaves values (flatten nodes)))) := by
  obtain ⟨v, evaluated, stands⟩ := chain.standsFor j
  rw [evaluated, stands.written occurs]

end

end Node

namespace Operator

theorem holdsInAnd_iff (v : Value)
    : holdsInAnd v = true ↔ v.isTruthy = true ∧ v ≠ .text "false" := by
  cases v with
  | text s => simp [holdsInAnd, And.comm]
  | null | number x | bool b | date d | list items | range lower upper => simp [holdsInAnd]

theorem joined_concat (leaves : List Value)
    : Joining.concat.joined leaves = String.join (leaves.map part) := by
  induction leaves with
  | nil => rfl
  | cons leaf rest ih =>
      rw [List.map_cons, String.join_cons, ← ih]
      rfl

theorem joined_and (leaves : List Value)
    : Joining.and.joined leaves = true
      ↔ ∀ leaf ∈ leaves, leaf.isTruthy = true ∧ leaf ≠ .text "false" := by
  induction leaves with
  | nil => simp [Joining.joined, Joining.and]
  | cons leaf rest ih =>
      change (holdsInAnd leaf && Joining.and.joined rest) = true ↔ _
      rw [Bool.and_eq_true, holdsInAnd_iff, ih, List.forall_mem_cons]

theorem joined_or (leaves : List Value)
    : Joining.or.joined leaves = true ↔ ∃ leaf ∈ leaves, leaf.isTruthy = true := by
  induction leaves with
  | nil => simp [Joining.joined, Joining.or]
  | cons leaf rest ih =>
      change (leaf.isTruthy || Joining.or.joined rest) = true ↔ _
      simp [ih]

end Operator

/-- In a chain of "concat", "and" or "or" parentheses do not matter. If there is an operator, the
value depends only on the values of the leaves from left to right: it is their texts one after
another, whether all of them hold, or whether one does.
-/
theorem chain_ignores_parentheses (op : Operator) (values : Valuation) (nodes : List Node)
    (joins : op = .concat ∨ op = .and ∨ op = .or) (chain : Node.Chain op values nodes)
    (occurs : .operator op ∈ Node.flatten nodes)
    : let leaves := Symbol.leaves values (Node.flatten nodes)
      ∃ v,
        Node.evaluate values nodes = .ok v
        ∧ (∀ others regrouped,
            Node.Chain op others regrouped
            → .operator op ∈ Node.flatten regrouped
            → Symbol.leaves others (Node.flatten regrouped) = leaves
            → Node.evaluate others regrouped = .ok v)
        ∧ (op = .concat → v = .text (String.join (leaves.map Operator.part)))
        ∧ (op = .and
          → ∃ b,
              v = .bool b
              ∧ (b = true ↔ ∀ leaf ∈ leaves, leaf.isTruthy = true ∧ leaf ≠ .text "false"))
        ∧ (op = .or → ∃ b, v = .bool b ∧ (b = true ↔ ∃ leaf ∈ leaves, leaf.isTruthy = true)) := by
  intro leaves
  have decides {α : Type} (j : op.Joining α)
      : ∀ others regrouped,
          Node.Chain op others regrouped
          → .operator op ∈ Node.flatten regrouped
          → Symbol.leaves others (Node.flatten regrouped) = leaves
          → Node.evaluate others regrouped = .ok (j.write (j.joined leaves)) :=
    fun others regrouped other inside same => same ▸ other.evaluate_eq j inside
  rcases joins with rfl | rfl | rfl
  · have own := decides .concat
    refine ⟨_, own values nodes chain occurs rfl, own, fun _ => ?_, nofun, nofun⟩
    exact congrArg Value.text (Operator.joined_concat leaves)
  · have own := decides .and
    refine ⟨_, own values nodes chain occurs rfl, own, nofun, fun _ => ?_, nofun⟩
    exact ⟨_, rfl, Operator.joined_and leaves⟩
  · have own := decides .or
    refine ⟨_, own values nodes chain occurs rfl, own, nofun, nofun, fun _ => ?_⟩
    exact ⟨_, rfl, Operator.joined_or leaves⟩

/-- In `( x AND ( "a" ) ) AND ( "false" )` every leaf is a condition that holds, but the last is
the text that does not hold in "and".
-/
theorem chain_ignores_parentheses_false
    : let values : Valuation := fun _ => some (.bool true)
      let nodes : List Node :=
        [
          .group [
            .operand 1 (.var "x"), .operator .and, .group [.operand 4 (.literal (.text "a"))]],
          .operator .and, .group [.operand 8 (.literal (.text "false"))]
        ]
      Node.Chain .and values nodes
      ∧ .operator .and ∈ Node.flatten nodes
      ∧ Symbol.leaves values (Node.flatten nodes) = [.bool true, .text "a", .text "false"]
      ∧ Node.evaluate values nodes = .ok (.bool false) := by
  intro values nodes
  have chain : Node.Chain .and values nodes := by
    refine ⟨?_, ?_, fun _ _ => rfl⟩
    · intro group closed
      simp only [nodes, Node.groups, Node.closedIn, Node.closed, List.nil_append, List.append_nil,
        List.cons_append, List.mem_cons, List.not_mem_nil, or_false] at closed
      rcases closed with rfl | rfl | rfl | rfl
      · exact .single rfl
      · exact (Node.Alternates.single rfl).applied .and rfl
      · exact .single rfl
      · exact (Node.Alternates.single rfl).applied .and rfl
    · intro other occurs
      simpa [nodes, Node.flatten, Node.symbols] using occurs
  have occurs : .operator .and ∈ Node.flatten nodes := by
    simp [nodes, Node.flatten, Node.symbols]
  have leaves : Symbol.leaves values (Node.flatten nodes)
      = [.bool true, .text "a", .text "false"] := rfl
  obtain ⟨v, evaluated, -, -, decided, -⟩ :=
    chain_ignores_parentheses .and values nodes (.inr (.inl rfl)) chain occurs
  obtain ⟨b, rfl, holds⟩ := decided rfl
  have fails : b = false := by
    rw [leaves] at holds
    simpa using holds
  exact ⟨chain, occurs, leaves, fails ▸ evaluated⟩

end RowFormula
