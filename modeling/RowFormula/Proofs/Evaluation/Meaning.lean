import RowFormula.Formula.Evaluation
import RowFormula.Proofs.Outcome

/-! The meaning of a group: it is cut at its operators, each stretch between two of them
has the value of its last operand that has one, and the operators are applied from left to
right. The evaluator, which applies each operator only when it reads the next one, gives
this value whenever it gives any.
-/

namespace RowFormula

-----------------------------------------------------------------------------------------
-- Groups cut at their operators
-----------------------------------------------------------------------------------------

/-- What a group shows of one of its nodes: an operator, or an operand with the value it
has, if any.
-/
inductive Item where
  | operator (op : Operator)
  | operand (value : Option Value)

/-- The operands before the first operator of a group, and each operator with the operands
that follow it up to the next one.
-/
structure Segments where
  first : List (Option Value)
  rest : List (Operator × List (Option Value))

namespace Segments

/-- Cuts items at the operators among them. -/
def cut : List Item → Segments
  | [] => ⟨[], []⟩
  | .operand value :: items => ⟨value :: (cut items).first, (cut items).rest⟩
  | .operator op :: items => ⟨[], (op, (cut items).first) :: (cut items).rest⟩

/-- The value of a segment: that of its last operand that has one. -/
def segmentValue (segment : List (Option Value)) : Option Value :=
  (segment.filterMap id).getLast?

/-- The result of one more operator. A missing side reads as null, and a unary operator
takes null for its left side.
-/
def step (result : Option Value) (next : Operator × List (Option Value)) : Option Value :=
  let left := if next.1.isUnary then Value.null else result.getD .null
  some (next.1.apply left ((segmentValue next.2).getD .null))

/-- The value of a group that was cut: with operators they are applied from left to right,
and without one it is the value of the only operand.
-/
def value? (s : Segments) : Option Value :=
  match s.first, s.rest with
  | [operand], [] => operand
  | _, [] => none
  | first, rest => rest.foldl step (segmentValue first)

end Segments

namespace Node

mutual

/-- What a group shows of a node. A nested group has the value of its own segments. -/
def item (values : Valuation) : Node → Item
  | operand _ o => .operand (o.value? values)
  | operator op => .operator op
  | group children => .operand (Segments.cut (items values children)).value?

def items (values : Valuation) : List Node → List Item
  | [] => []
  | node :: rest => node.item values :: items values rest

end

/-- The value that a group means. -/
def meaning? (values : Valuation) (nodes : List Node) : Option Value :=
  (Segments.cut (items values nodes)).value?

end Node

-----------------------------------------------------------------------------------------
-- What reading one item does to the progress of a group
-----------------------------------------------------------------------------------------

namespace Progress

/-- Reading an item leads from one progress to the next. -/
inductive Reads (p : Progress) : Item → Progress → Prop
  | value (v : Value) : p.Reads (.operand (some v)) (p.takeValue v)
  | unset (c : Component) : p.Reads (.operand none) (p.takeUnset c)
  | operator (op : Operator) : p.Reads (.operator op) (p.takeOperator op)

/-- The result that a progress reaches with the segments still to be read: the operands
up to the next operator complete the side that is open, and every further operator is one
step.
-/
def resume (p : Progress) (s : Segments) : Option Value :=
  let side := (Segments.segmentValue s.first).or p.operand
  s.rest.foldl Segments.step { p with operand := side }.settled

/-- A progress has read the segments of a group and come to another progress. -/
structure Completes (p : Progress) (s : Segments) (q : Progress) : Prop where
  settled : q.settled = p.resume s
  pending : q.pending = none ↔ p.pending = none ∧ s.rest = []
  operands : s.rest = [] → q.operands = p.operands + s.first.length

/-- A value at the front of a segment shows only if no later operand has one. -/
theorem segmentValue_some_cons (v : Value) (segment : List (Option Value))
    : Segments.segmentValue (some v :: segment)
      = (Segments.segmentValue segment).or (some v) := by
  have present : (some v :: segment).filterMap id = v :: segment.filterMap id := rfl
  rw [Segments.segmentValue, present, List.getLast?_cons, Segments.segmentValue]
  cases (segment.filterMap id).getLast? <;> rfl

theorem segmentValue_none_cons (segment : List (Option Value))
    : Segments.segmentValue (none :: segment) = Segments.segmentValue segment := by
  simp [Segments.segmentValue]

theorem Completes.refl (p : Progress) : p.Completes ⟨[], []⟩ p where
  settled := rfl
  pending := by simp
  operands := by simp

/-- Reading one item and then the rest of a group is reading the group. -/
theorem Reads.completes {p middle q : Progress} {item : Item} {items : List Item}
    (first : p.Reads item middle) (rest : middle.Completes (Segments.cut items) q)
    : p.Completes (Segments.cut (item :: items)) q := by
  cases first with
  | value v =>
      refine ⟨?_, rest.pending, fun last => ?_⟩
      · simp only [rest.settled, resume, Segments.cut, segmentValue_some_cons, takeValue,
          Option.or_assoc, Option.some_or]
        rfl
      · simp only [rest.operands last, takeValue, Segments.cut, List.length_cons]
        omega
  | unset c =>
      refine ⟨?_, rest.pending, fun last => ?_⟩
      · simp only [rest.settled, resume, Segments.cut, segmentValue_none_cons, takeUnset]
        rfl
      · simp only [rest.operands last, takeUnset, Segments.cut, List.length_cons]
        omega
  | operator op =>
      refine ⟨?_, ?_, fun last => nomatch last⟩
      · simp only [rest.settled, resume, Segments.cut, takeOperator, Option.or_none,
          List.foldl_cons]
        rfl
      · simp [rest.pending, takeOperator, Segments.cut]

/-- The value of a group is the result that is reached from its beginning, unless several
operands stand without an operator.
-/
theorem value?_eq_resume (s : Segments) (alone : s.rest = [] → s.first.length ≤ 1)
    : s.value? = resume {} s := by
  obtain ⟨first, rest⟩ := s
  cases rest with
  | cons next more =>
      simp only [Segments.value?, resume, Option.or_none]
      rfl
  | nil =>
      match first, alone rfl with
      | [], _ => rfl
      | [none], _ => rfl
      | [some v], _ => rfl

/-- The value of a finished group is the result of settling what is pending. -/
theorem settled_of_finish {p : Progress} {v : Value} (finished : p.finish = .ok v)
    : p.settled = some v ∧ (p.pending = none → p.operands ≤ 1) := by
  obtain ⟨result, pending, operand, filled, operands, unset⟩ := p
  cases pending with
  | some op =>
      cases filled with
      | false => simp [Progress.finish] at finished
      | true => simpa [Progress.finish, settled] using finished
  | none =>
      by_cases several : 1 < operands
      · simp [Progress.finish, several] at finished
      · cases operand with
        | some w =>
            have same : w = v := by simpa [Progress.finish, several] using finished
            exact ⟨congrArg some same, fun _ => Nat.not_lt.mp several⟩
        | none => cases unset <;> simp [Progress.finish, several] at finished

/-- A group that was read from its beginning and finished has the value of its segments. -/
theorem Completes.value? {s : Segments} {q : Progress} {v : Value}
    (completed : Progress.Completes {} s q) (finished : q.finish = .ok v)
    : s.value? = some v := by
  obtain ⟨settled, alone⟩ := settled_of_finish finished
  have single : s.rest = [] → s.first.length ≤ 1 := by
    intro last
    have counted := completed.operands last
    have bounded := alone (completed.pending.mpr ⟨rfl, last⟩)
    simp only [Nat.zero_add] at counted
    omega
  rw [value?_eq_resume s single, ← completed.settled, settled]

end Progress

-----------------------------------------------------------------------------------------
-- The evaluator gives the meaning
-----------------------------------------------------------------------------------------

namespace Node

open Progress

mutual

/-- Reading a node reads what the group shows of it. A nested group is read from its own
beginning, so that its meaning is known from the mutual induction on its children.
-/
theorem advance_reads (values : Valuation) (p q : Progress) (node : Node)
    (advanced : advance values p node = .ok q)
    : p.Reads (node.item values) q := by
  cases node with
  | operand order o =>
      rcases advance_operand_eq_ok advanced with ⟨v, found, rfl⟩ | ⟨found, rfl⟩
      · simpa only [item, found] using Reads.value v
      · simpa only [item, found] using Reads.unset _
  | operator op =>
      obtain rfl := Except.ok.inj advanced
      exact .operator op
  | group children =>
      rw [advance_group] at advanced
      obtain ⟨v, evaluated, rfl⟩ := Except.map_eq_ok_iff.mp advanced
      obtain ⟨inner, read, finished⟩ := Except.bind_eq_ok_iff.mp evaluated
      have completed := advanceAll_completes values {} inner children read
      simpa only [item, completed.value? finished] using Reads.value v

/-- Reading nodes reads the segments that the group shows, by induction on the nodes. -/
theorem advanceAll_completes (values : Valuation) (p q : Progress) (nodes : List Node)
    (advanced : advanceAll values p nodes = .ok q)
    : p.Completes (Segments.cut (items values nodes)) q := by
  cases nodes with
  | nil =>
      obtain rfl := Except.ok.inj advanced
      exact .refl p
  | cons node rest =>
      rw [advanceAll_cons] at advanced
      obtain ⟨middle, step, others⟩ := Except.bind_eq_ok_iff.mp advanced
      have first := advance_reads values p middle node step
      exact first.completes (advanceAll_completes values middle q rest others)

end

/-- A group that evaluates to a value means that value. -/
theorem meaning?_of_evaluate {values : Valuation} {nodes : List Node} {v : Value}
    (evaluated : evaluate values nodes = .ok v)
    : meaning? values nodes = some v := by
  obtain ⟨q, read, finished⟩ := Except.bind_eq_ok_iff.mp evaluated
  exact (advanceAll_completes values {} q nodes read).value? finished

end Node

/-- Evaluation applies operators from left to right, and none binds tighter than another: a
group that evaluates has the value of its segments, and the value of a formula is that of
its tree, cast to the declared type.
-/
theorem evaluate_means (values : Valuation)
    : (∀ (nodes : List Node) (v : Value),
        Node.evaluate values nodes = .ok v → Node.meaning? values nodes = some v)
      ∧ ∀ (f : Formula) (v : Value),
          f.evaluate values = .ok v
          ↔ ∃ nodes raw,
              Node.ofComponents f.components = .ok nodes
              ∧ Node.evaluate values nodes = .ok raw
              ∧ Node.meaning? values nodes = some raw
              ∧ v = f.resultAs.cast raw := by
  constructor
  · intro nodes v evaluated
    exact Node.meaning?_of_evaluate evaluated
  · intro f v
    simp only [Formula.evaluate, Except.bind_eq_ok_iff, Except.map_eq_ok_iff]
    constructor
    · rintro ⟨nodes, parsed, raw, evaluated, cast⟩
      exact ⟨nodes, raw, parsed, evaluated, Node.meaning?_of_evaluate evaluated, cast.symm⟩
    · rintro ⟨nodes, raw, parsed, evaluated, _, cast⟩
      exact ⟨nodes, parsed, raw, evaluated, cast.symm⟩

/-- In `"a" y & ( NOT x )` the unset `y` does not hide the text before it, and the unset
`x` is read as null.
-/
theorem evaluate_means_unset
    : let nodes : List Node :=
        [
          .operand 0 (.literal (.text "a")), .operand 1 (.var "y"), .operator .concat,
          .group [.operator .not, .operand 5 (.var "x")]
        ]
      let none : Valuation := fun _ => none
      Node.evaluate none nodes = .ok (.text "atrue")
      ∧ Node.meaning? none nodes = some (.text "atrue") :=
  ⟨rfl, (evaluate_means _).1 _ _ rfl⟩

end RowFormula
