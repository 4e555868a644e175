import RowFormula.Proofs.Evaluation.Groups
import RowFormula.Proofs.Evaluation.Meaning

/-! Grouping what is evaluated first anyway. Progresses that show the same to the operators to
come go on alike, so that the beginning of a group may stand in parentheses; and a group may give
way to its value wherever it stands in a tree.
-/

namespace RowFormula

-----------------------------------------------------------------------------------------
-- Progresses that go on alike
-----------------------------------------------------------------------------------------

namespace Progress

/-- Two progresses wait for the right side of the same operator and have read the same on both of
its sides, where a missing value counts as null. How many operands were read, and which of them had
no value, does not matter.
-/
structure Alike (p q : Progress) : Prop where
  pending : p.pending = q.pending
  filled : p.filled = q.filled
  result : p.result.getD .null = q.result.getD .null
  operand : p.operand.getD .null = q.operand.getD .null

namespace Alike

variable {p q : Progress} (alike : p.Alike q)

include alike

theorem applied (op : Operator)
    : Progress.applied op p.result p.operand = Progress.applied op q.result q.operand := by
  simp only [Progress.applied, alike.result, alike.operand]

theorem settled : p.settled.getD .null = q.settled.getD .null := by
  simp only [Progress.settled, alike.pending]
  cases q.pending with
  | some op => exact alike.applied op
  | none => exact alike.operand

theorem takeValue (v : Value) : (p.takeValue v).Alike (q.takeValue v) :=
  ⟨alike.pending, rfl, alike.result, rfl⟩

theorem takeUnset (c : Component) : (p.takeUnset c).Alike (q.takeUnset c) :=
  ⟨alike.pending, rfl, alike.result, alike.operand⟩

theorem takeOperator (op : Operator) : (p.takeOperator op).Alike (q.takeOperator op) :=
  ⟨rfl, rfl, alike.settled, rfl⟩

/-- Once there is an operator, the end of a group sees nothing else. -/
theorem finish (waits : p.pending.isSome) : p.finish = q.finish := by
  obtain ⟨op, pending⟩ := Option.isSome_iff_exists.mp waits
  have other : q.pending = some op := alike.pending ▸ pending
  simp only [Progress.finish, pending, other, alike.filled, alike.applied op]

end Alike

end Progress

namespace Node

variable {values : Valuation}

/-- Alike progresses come to the same end, by induction on the nodes that are left. -/
theorem finish_of_alike {p q : Progress} (alike : p.Alike q) (waits : p.pending.isSome)
    (nodes : List Node)
    : (advanceAll values p nodes).bind Progress.finish
      = (advanceAll values q nodes).bind Progress.finish := by
  induction nodes generalizing p q with
  | nil => exact alike.finish waits
  | cons node rest ih =>
      rw [advanceAll_cons, advanceAll_cons]
      cases node with
      | operand order o =>
          cases found : o.value? values with
          | some v =>
              rw [advance_operand_of_some found, advance_operand_of_some found]
              exact ih (alike.takeValue v) waits
          | none =>
              rw [advance_operand_of_none found, advance_operand_of_none found]
              exact ih (alike.takeUnset _) waits
      | operator op => exact ih (alike.takeOperator op) rfl
      | group children =>
          rw [advance_group, advance_group]
          cases evaluate values children with
          | error e => rfl
          | ok v => exact ih (alike.takeValue v) waits

theorem advanceAll_append (values : Valuation) (p : Progress) (left right : List Node)
    : advanceAll values p (left ++ right)
      = (advanceAll values p left).bind fun q => advanceAll values q right := by
  induction left generalizing p with
  | nil => rfl
  | cons node rest ih =>
      rw [List.cons_append, advanceAll_cons, advanceAll_cons]
      cases advance values p node with
      | error e => rfl
      | ok middle => exact ih middle

/-- The beginning of a group that has a value of its own may stand in parentheses, if an operator
follows it or nothing at all.
-/
theorem evaluate_append {before rest : List Node} {v : Value}
    (evaluated : evaluate values before = .ok v)
    (follows : rest = [] ∨ ∃ op more, rest = .operator op :: more)
    : evaluate values (before ++ rest) = evaluate values (.group before :: rest) := by
  obtain ⟨p, read, finished⟩ := Except.bind_eq_ok_iff.mp evaluated
  have plain : advanceAll values {} (before ++ rest) = advanceAll values p rest := by
    rw [advanceAll_append, read]
    rfl
  have grouped : advanceAll values {} (.group before :: rest)
      = advanceAll values (Progress.takeValue {} v) rest := by
    rw [advanceAll_cons, advance_group, evaluated]
    rfl
  rw [evaluate, evaluate, plain, grouped]
  rcases follows with rfl | ⟨op, more, rfl⟩
  · exact finished
  · -- The operator takes the value over as its left side.
    have settled : p.settled = some v := (Progress.settled_of_finish finished).1
    have result : (p.takeOperator op).result.getD .null = v := by
      rw [Progress.takeOperator, settled]
      rfl
    have alike : (p.takeOperator op).Alike ((Progress.takeValue {} v).takeOperator op) :=
      ⟨rfl, rfl, result, rfl⟩
    exact finish_of_alike alike rfl more

end Node

-----------------------------------------------------------------------------------------
-- Nodes and what surrounds them
-----------------------------------------------------------------------------------------

/-- What surrounds a node of a tree: the nodes before it and after it, and what surrounds the group
in which it stands.
-/
inductive Surroundings where
  | outermost (before after : List Node)
  | inside (around : Surroundings) (before after : List Node)

namespace Surroundings

/-- The tree in which a node has these surroundings. -/
def fill : Surroundings → Node → List Node
  | outermost before after, node => before ++ node :: after
  | inside around before after, node => around.fill (.group (before ++ node :: after))

/-- The surroundings in a tree that is itself a group with surroundings. -/
def within (outer : Surroundings) : Surroundings → Surroundings
  | outermost before after => inside outer before after
  | inside around before after => inside (within outer around) before after

theorem fill_within (outer inner : Surroundings) (node : Node)
    : (outer.within inner).fill node = outer.fill (.group (inner.fill node)) := by
  induction inner generalizing node with
  | outermost before after => rfl
  | inside around before after ih => exact ih _

/-- Every group of a tree has surroundings in it, by induction on the trees in the tree. -/
theorem exists_of_mem_closedIn {nodes group : List Node} (closed : group ∈ Node.closedIn nodes)
    : ∃ around : Surroundings, around.fill (.group group) = nodes := by
  induction nodes using Node.induction_on_groups with
  | step nodes ih =>
      obtain ⟨children, member, inside⟩ := Node.mem_closedIn_iff.mp closed
      obtain ⟨before, after, rfl⟩ := List.append_of_mem member
      rcases Node.mem_groups_iff.mp inside with inner | rfl
      · obtain ⟨around, rfl⟩ := ih children member inner
        exact ⟨(outermost before after).within around, fill_within _ _ _⟩
      · exact ⟨outermost before after, rfl⟩

/-- Two nodes that are read alike may stand for one another in any surroundings, by induction on
them.
-/
theorem evaluate_fill_congr {values : Valuation} {first second : Node}
    (same : ∀ p, Node.advance values p first = Node.advance values p second)
    (around : Surroundings)
    : Node.evaluate values (around.fill first) = Node.evaluate values (around.fill second) := by
  have inGroup {one other : Node}
      (same : ∀ p, Node.advance values p one = Node.advance values p other)
      (before after : List Node)
      : Node.evaluate values (before ++ one :: after)
        = Node.evaluate values (before ++ other :: after) := by
    simp only [Node.evaluate, Node.advanceAll_append, Node.advanceAll_cons, same]
  induction around generalizing first second with
  | outermost before after => exact inGroup same before after
  | inside outer before after ih =>
      refine ih fun p => ?_
      rw [Node.advance_group, Node.advance_group, inGroup same before after]

end Surroundings

/-- Parentheses around what is evaluated first anyway change nothing: around the beginning of a
group that has a value of its own and is followed by an operator or nothing, and around a group
that is replaced by a literal of its value, wherever it stands in a tree. The results are the same
whether they are values or errors.
-/
theorem evaluate_grouped_first (values : Valuation)
    : (∀ before rest v,
        Node.evaluate values before = .ok v
        → (rest = [] ∨ ∃ op more, rest = .operator op :: more)
        → Node.evaluate values (before ++ rest) = Node.evaluate values (.group before :: rest))
      ∧ ∀ nodes group v,
          group ∈ Node.closedIn nodes
          → Node.evaluate values group = .ok v
          → (∃ around : Surroundings, around.fill (.group group) = nodes)
            ∧ ∀ (around : Surroundings) order,
                around.fill (.group group) = nodes
                → Node.evaluate values (around.fill (.operand order (.literal v)))
                  = Node.evaluate values nodes := by
  refine ⟨fun before rest v evaluated follows => Node.evaluate_append evaluated follows, ?_⟩
  intro nodes group v closed evaluated
  refine ⟨Surroundings.exists_of_mem_closedIn closed, ?_⟩
  rintro around order rfl
  refine around.evaluate_fill_congr fun p => ?_
  rw [Node.advance_group, evaluated]
  rfl

/-- In `NOT x & "a"` with an unset `x`, where `NOT x` may stand in parentheses, and the group may
give way to its value, also within a further group.
-/
theorem evaluate_grouped_first_unset
    : let unset : Valuation := fun _ => none
      let first : List Node := [.operator .not, .operand 1 (.var "x")]
      let rest : List Node := [.operator .concat, .operand 3 (.literal (.text "a"))]
      let around : Surroundings := .inside (.outermost [] [.operator .not]) [] rest
      Node.evaluate unset first = .ok (.bool true)
      ∧ Node.evaluate unset (first ++ rest) = Node.evaluate unset (.group first :: rest)
      ∧ first ∈ Node.closedIn (around.fill (.group first))
      ∧ Node.evaluate unset (around.fill (.operand 0 (.literal (.bool true))))
        = .error (.danglingOperator .not) := by
  intro unset first rest around
  have evaluated : Node.evaluate unset first = .ok (.bool true) := rfl
  have closed : first ∈ Node.closedIn (around.fill (.group first)) :=
    List.mem_cons_self
  obtain ⟨grouped, replaced⟩ := evaluate_grouped_first unset
  refine ⟨evaluated, grouped first rest _ evaluated (.inr ⟨_, _, rfl⟩), closed, ?_⟩
  exact (replaced _ first _ closed evaluated).2 around 0 rfl

end RowFormula
