import RowFormula.Proofs.Evaluation.Faults
import RowFormula.Proofs.Evaluation.Grouping

/-! Variables without a value read as null inside an operation. Only a group that consists of such
a variable alone is at fault, and a value that stands right before one is not hidden by it; where
no two operands are neighbours, null in their place gives the same value.
-/

namespace RowFormula

/-- The valuation that gives null to those of the paths that have no value. -/
def Valuation.withNulls (values : Valuation) (paths : List String) : Valuation := fun path =>
  if path ∈ paths then some ((values path).getD .null) else values path

namespace Node

/-- Of two neighbours in a group one is an operator. -/
def Separated (group : List Node) : Prop :=
  group.IsChain fun left right => left.operator?.isSome ∨ right.operator?.isSome

/-- The operands of a group keep their values, and have null where they have none. -/
def Nulled (values supplied : Valuation) (group : List Node) : Prop :=
  ∀ order o, .operand order o ∈ group → o.value? supplied = some ((o.value? values).getD .null)

variable {values supplied : Valuation}

theorem nulled_withNulls {paths : List String} {group : List Node}
    (listed : ∀ order path, .operand order (.var path) ∈ group → path ∈ paths)
    : Nulled values (values.withNulls paths) group := by
  intro order o member
  cases o with
  | literal v => rfl
  | var path => exact if_pos (listed order path member)

-----------------------------------------------------------------------------------------
-- Which groups are sound
-----------------------------------------------------------------------------------------

theorem Sound.nulled {group : List Node} (sound : Sound values group)
    (same : Nulled values supplied group)
    : Sound supplied group := by
  rcases sound with applied | ⟨children, rfl⟩ | ⟨order, o, rfl, -⟩
  · exact .inl applied
  · exact .inr (.inl ⟨children, rfl⟩)
  · have set := same order o List.mem_cons_self
    exact .inr (.inr ⟨order, o, rfl, by rw [set]; rfl⟩)

/-- A group that is sound thanks to null is a variable alone. -/
theorem Sound.of_nulled {group : List Node} (sound : Sound supplied group)
    : Sound values group
      ∨ ∃ order path, group = [.operand order (.var path)] ∧ values path = none := by
  rcases sound with applied | ⟨children, rfl⟩ | ⟨order, o, rfl, -⟩
  · exact .inl (.inl applied)
  · exact .inl (.inr (.inl ⟨children, rfl⟩))
  · cases o with
    | literal v => exact .inl (.inr (.inr ⟨order, .literal v, rfl, rfl⟩))
    | var path =>
        cases found : values path with
        | none => exact .inr ⟨order, path, rfl, found⟩
        | some v =>
            have set : ((Operand.var path).value? values).isSome := by
              rw [Operand.value?, found]
              rfl
            exact .inl (.inr (.inr ⟨order, .var path, rfl, set⟩))

theorem fault?_unset {path : String} (unset : values path = none) (order : UInt32)
    : fault? values [.operand order (.var path)]
      = some (.invalidComponent ⟨order, .operand (.var path)⟩) := by
  have plain : ∀ node ∈ [Node.operand order (.var path)], node.operator? = none := by
    intro node member
    rw [List.mem_singleton.mp member]
    rfl
  rw [fault?_plain values plain, plainFault?, Operand.value?, unset]

-----------------------------------------------------------------------------------------
-- Null in the place of what has no value
-----------------------------------------------------------------------------------------

theorem Nulled.mono {group part : List Node} (same : Nulled values supplied group)
    (inside : part ⊆ group)
    : Nulled values supplied part :=
  fun order o member => same order o (inside member)

/-- The trees among nodes have the same value under both valuations, if they have one. -/
def AgreeInside (values supplied : Valuation) (nodes : List Node) : Prop :=
  ∀ children v w,
    .group children ∈ nodes
    → evaluate values children = .ok v
    → evaluate supplied children = .ok w
    → v = w

theorem AgreeInside.mono {nodes part : List Node} (agree : AgreeInside values supplied nodes)
    (inside : part ⊆ nodes)
    : AgreeInside values supplied part :=
  fun children v w member => agree children v w (inside member)

/-- Reading a node keeps progresses alike. An operand without a value leaves what was read before
it in place, so that nothing may have been read.
-/
theorem alike_of_advance {node : Node} {p q p' q' : Progress} (same : Nulled values supplied [node])
    (agree : AgreeInside values supplied [node]) (alike : p.Alike q)
    (empty : node.operator? = none → p.operand = none)
    (first : advance values p node = .ok p') (second : advance supplied q node = .ok q')
    : p'.Alike q' := by
  cases node with
  | operand order o =>
      have set := same order o List.mem_cons_self
      rw [advance_operand_of_some set] at second
      obtain rfl := Except.ok.inj second
      cases found : o.value? values with
      | some v =>
          rw [advance_operand_of_some found] at first
          obtain rfl := Except.ok.inj first
          exact alike.takeValue v
      | none =>
          rw [advance_operand_of_none found] at first
          obtain rfl := Except.ok.inj first
          refine ⟨alike.pending, rfl, alike.result, ?_⟩
          rw [Progress.takeUnset, empty rfl]
          rfl
  | operator op =>
      obtain rfl := Except.ok.inj first
      obtain rfl := Except.ok.inj second
      exact alike.takeOperator op
  | group children =>
      rw [advance_group] at first second
      obtain ⟨v, value, rfl⟩ := Except.map_eq_ok_iff.mp first
      obtain ⟨w, other, rfl⟩ := Except.map_eq_ok_iff.mp second
      obtain rfl := agree children v w List.mem_cons_self value other
      exact alike.takeValue v

/-- Reading separated nodes keeps progresses alike, by induction on the nodes: before an operand
the place is empty, at first by assumption and then because an operator was read.
-/
theorem alike_of_advanceAll {nodes : List Node} {p q p' q' : Progress}
    (same : Nulled values supplied nodes) (agree : AgreeInside values supplied nodes)
    (separated : Separated nodes) (alike : p.Alike q)
    (empty : ∀ node ∈ nodes.head?, node.operator? = none → p.operand = none)
    (first : advanceAll values p nodes = .ok p') (second : advanceAll supplied q nodes = .ok q')
    : p'.Alike q' := by
  induction nodes generalizing p q with
  | nil =>
      obtain rfl := Except.ok.inj first
      obtain rfl := Except.ok.inj second
      exact alike
  | cons node rest ih =>
      rw [advanceAll_cons] at first second
      obtain ⟨middle, step, others⟩ := Except.bind_eq_ok_iff.mp first
      obtain ⟨middle', step', others'⟩ := Except.bind_eq_ok_iff.mp second
      have head : [node] ⊆ node :: rest := by simp
      have tail : rest ⊆ node :: rest := List.subset_cons_self node rest
      have stepped : middle.Alike middle' :=
        alike_of_advance (same.mono head) (agree.mono head) alike (empty node rfl) step step'
      refine ih (same.mono tail) (agree.mono tail) separated.tail stepped ?_ others others'
      intro next atHead operand
      obtain ⟨more, rfl⟩ := List.head?_eq_some_iff.mp atHead
      rcases (List.isChain_cons_cons.mp separated).1 with isOperator | isOperator
      · obtain ⟨op, found⟩ := Option.isSome_iff_exists.mp isOperator
        obtain rfl := operator?_eq_some_iff.mp found
        obtain rfl := Except.ok.inj step
        rfl
      · simp [operand] at isOperator

/-- A tree whose groups are separated has the same value under both valuations, if it has one
under each, by induction on the trees in it.
-/
theorem value_eq_of_nulled {nodes : List Node} {v w : Value}
    (same : ∀ group ∈ groups nodes, Nulled values supplied group)
    (separated : ∀ group ∈ groups nodes, Separated group)
    (first : evaluate values nodes = .ok v) (second : evaluate supplied nodes = .ok w)
    : v = w := by
  induction nodes using induction_on_groups generalizing v w with
  | step nodes ih =>
      have itself := self_mem_groups nodes
      have agree : AgreeInside values supplied nodes := fun children v w member value other =>
        ih children member (fun group closed => same group (groups_of_mem member closed))
          (fun group closed => separated group (groups_of_mem member closed)) value other
      obtain ⟨p, read, finished⟩ := Except.bind_eq_ok_iff.mp first
      obtain ⟨q, read', finished'⟩ := Except.bind_eq_ok_iff.mp second
      have start : Progress.Alike {} {} := ⟨rfl, rfl, rfl, rfl⟩
      have alike := alike_of_advanceAll (same nodes itself) agree (separated nodes itself) start
        (fun _ _ _ => rfl) read read'
      have settled := alike.settled
      rw [(Progress.settled_of_finish finished).1, (Progress.settled_of_finish finished').1]
        at settled
      exact settled

section

variable {nodes : List Node} {v : Value}
  (same : ∀ group ∈ groups nodes, Nulled values supplied group)
  (separated : ∀ group ∈ groups nodes, Separated group)

include same separated

/-- A tree that has a value keeps it when null is given to what has none. -/
theorem evaluate_nulled (evaluated : evaluate values nodes = .ok v)
    : evaluate supplied nodes = .ok v := by
  have sound :=
    List.findSome?_eq_none_iff.mp ((evaluate_reports values nodes).eq_ok_iff.mp ⟨v, evaluated⟩)
  have suppliedSound : (groups nodes).findSome? (fault? supplied) = none := by
    refine List.findSome?_eq_none_iff.mpr fun group member => ?_
    have own := (fault?_eq_none_iff values group).mp (sound group member)
    exact (fault?_eq_none_iff supplied group).mpr (own.nulled (same group member))
  obtain ⟨w, other⟩ := (evaluate_reports supplied nodes).eq_ok_iff.mpr suppliedSound
  rw [value_eq_of_nulled same separated evaluated other]
  exact other

/-- A value that a tree has thanks to null is its value without it, unless a variable without a
value stands alone in a group: the first such group is at fault then.
-/
theorem evaluate_of_nulled (evaluated : evaluate supplied nodes = .ok v)
    : evaluate values nodes = .ok v
      ∨ ∃ order path,
          [.operand order (.var path)] ∈ groups nodes
          ∧ values path = none
          ∧ evaluate values nodes = .error (.invalidComponent ⟨order, .operand (.var path)⟩) := by
  have reported := evaluate_reports values nodes
  cases fault : (groups nodes).findSome? (fault? values) with
  | none =>
      obtain ⟨w, other⟩ := reported.eq_ok_iff.mpr fault
      rw [← value_eq_of_nulled same separated other evaluated]
      exact .inl other
  | some e =>
      obtain ⟨group, member, atFault⟩ := List.exists_of_findSome?_eq_some fault
      have sound := List.findSome?_eq_none_iff.mp
        ((evaluate_reports supplied nodes).eq_ok_iff.mp ⟨v, evaluated⟩) group member
      obtain others | ⟨order, path, rfl, unset⟩ : Sound values group
          ∨ ∃ order path, group = [.operand order (.var path)] ∧ values path = none :=
        ((fault?_eq_none_iff supplied group).mp sound).of_nulled
      · rw [(fault?_eq_none_iff values group).mpr others] at atFault
        contradiction
      · rw [fault?_unset unset] at atFault
        obtain rfl := Option.some.inj atFault
        exact .inr ⟨order, path, member, unset, (reported.eq_error_iff _).mpr fault⟩

end

end Node

/-- Inside an operation a variable without a value reads as null. Where no two operands of a group
are neighbours, a formula that has a value keeps it when its variables without values have null;
and a formula that has a value then has that value without it, unless a group consists of such a
variable alone.
-/
theorem unset_reads_as_null (f : Formula) (values : Valuation)
    (separated
      : ∀ nodes,
          Node.ofComponents f.components = .ok nodes
          → ∀ group ∈ Node.groups nodes, Node.Separated group)
    (v : Value)
    : let supplied := values.withNulls f.variablePaths
      (f.evaluate values = .ok v → f.evaluate supplied = .ok v)
      ∧ (f.evaluate supplied = .ok v
        → f.evaluate values = .ok v
          ∨ ∃ nodes order path,
              Node.ofComponents f.components = .ok nodes
              ∧ [.operand order (.var path)] ∈ Node.groups nodes
              ∧ values path = none
              ∧ f.evaluate values = .error (.invalidComponent ⟨order, .operand (.var path)⟩)) := by
  intro supplied
  cases parsed : Node.ofComponents f.components with
  | error e => simp [Formula.evaluate, parsed, Except.bind]
  | ok nodes =>
      have same : ∀ group ∈ Node.groups nodes, Node.Nulled values supplied group := by
        intro group member
        exact Node.nulled_withNulls fun order path occurs =>
          Node.var_mem_variablePaths parsed member occurs
      have cast (valuation : Valuation)
          : f.evaluate valuation = (Node.evaluate valuation nodes).map f.resultAs.cast := by
        simp only [Formula.evaluate, parsed, Except.bind]
      simp only [cast, Except.map_eq_ok_iff]
      constructor
      · rintro ⟨raw, value, rfl⟩
        exact ⟨raw, Node.evaluate_nulled same (separated nodes parsed) value, rfl⟩
      · rintro ⟨raw, value, rfl⟩
        rcases Node.evaluate_of_nulled same (separated nodes parsed) value with
          kept | ⟨order, path, alone, unset, fails⟩
        · exact .inl ⟨raw, kept, rfl⟩
        · refine .inr ⟨nodes, order, path, rfl, alone, unset, ?_⟩
          rw [fails]
          rfl

/-- In `x & ( y )` an unset `x` reads as null beside a `y` that has a value; without values the
formula has one only if null is given to `y`, which stands alone in its group.
-/
theorem unset_reads_as_null_beside
    : let x : Symbol := .operand (.var "x")
      let y : Symbol := .operand (.var "y")
      let f : Formula :=
        { Formula.ofSymbols "f" [x, .operator .concat, .opening, y, .closing] with
          resultAs := .string }
      let unset : Valuation := fun _ => none
      let onlyY : Valuation := fun path => if path = "y" then some (.text "b") else none
      (∀ nodes,
        Node.ofComponents f.components = .ok nodes
        → ∀ group ∈ Node.groups nodes, Node.Separated group)
      ∧ f.evaluate onlyY = .ok (.text "b")
      ∧ f.evaluate (onlyY.withNulls f.variablePaths) = .ok (.text "b")
      ∧ f.evaluate (unset.withNulls f.variablePaths) = .ok (.text "")
      ∧ ∃ nodes order path,
          [.operand order (.var path)] ∈ Node.groups nodes
          ∧ f.evaluate unset = .error (.invalidComponent ⟨order, .operand (.var path)⟩) := by
  intro x y f unset onlyY
  have parsed : Node.ofComponents f.components
      = .ok [.operand 0 (.var "x"), .operator .concat, .group [.operand 3 (.var "y")]] := by cbv
  have separated (nodes : List Node) (tree : Node.ofComponents f.components = .ok nodes)
      : ∀ group ∈ Node.groups nodes, Node.Separated group := by
    rw [parsed] at tree
    obtain rfl := Except.ok.inj tree
    simp [Node.groups, Node.closedIn, Node.closed, Node.Separated, Node.operator?]
  have paths : f.variablePaths = ["x", "y"] := by cbv
  have value : f.evaluate onlyY = .ok (.text "b") := by cbv
  have supplied : f.evaluate (unset.withNulls f.variablePaths) = .ok (.text "") := by
    rw [paths]
    cbv
  have fault : f.evaluate unset = .error (.invalidComponent ⟨3, y⟩) := by cbv
  refine ⟨separated, value, (unset_reads_as_null f onlyY separated _).1 value, supplied, ?_⟩
  rcases (unset_reads_as_null f unset separated _).2 supplied with
    same | ⟨nodes, order, path, -, alone, -, fails⟩
  · rw [same] at fault
    contradiction
  · exact ⟨nodes, order, path, alone, fails⟩

end RowFormula
