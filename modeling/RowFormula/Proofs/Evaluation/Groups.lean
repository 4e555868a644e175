import RowFormula.Formula.Evaluation
import RowFormula.Proofs.Formula.Flattening

/-! The groups of a tree and their faults. Every group is sound or has one fault, which
shows in its own nodes and depends on its variables only by which of them have values.
-/

namespace RowFormula

namespace Node

-----------------------------------------------------------------------------------------
-- Groups and their faults
-----------------------------------------------------------------------------------------

mutual

/-- The groups that a node closes, inner ones before those around them. -/
def closed : Node → List (List Node)
  | group children => closedIn children ++ [children]
  | _ => []

def closedIn : List Node → List (List Node)
  | [] => []
  | node :: rest => node.closed ++ closedIn rest

end

/-- The groups of a tree in the order in which they are closed; the tree itself is the last.
-/
def groups (nodes : List Node) : List (List Node) :=
  closedIn nodes ++ [nodes]

def operator? : Node → Option Operator
  | operator op => some op
  | _ => none

theorem mem_groups_iff {nodes group : List Node}
    : group ∈ groups nodes ↔ group ∈ closedIn nodes ∨ group = nodes := by
  rw [groups, List.mem_append, List.mem_singleton]

theorem self_mem_groups (nodes : List Node) : nodes ∈ groups nodes :=
  mem_groups_iff.mpr (.inr rfl)

/-- The groups inside nodes are the groups of the trees that stand among them. -/
theorem mem_closedIn_iff {nodes group : List Node}
    : group ∈ closedIn nodes ↔ ∃ children, .group children ∈ nodes ∧ group ∈ groups children := by
  induction nodes with
  | nil => simp [closedIn]
  | cons node rest ih =>
      rw [closedIn, List.mem_append, ih]
      cases node with
      | operand order o => simp [closed]
      | operator op => simp [closed]
      | group children => simp [closed, groups]

/-- The groups of a tree that stands among nodes are groups of the nodes. -/
theorem groups_of_mem {nodes children : List Node} (member : .group children ∈ nodes)
    : groups children ⊆ groups nodes :=
  fun _ inside => mem_groups_iff.mpr (.inl (mem_closedIn_iff.mpr ⟨children, member, inside⟩))

/-- What holds of nodes as soon as it holds of the trees among them holds of every tree. -/
@[elab_as_elim]
theorem induction_on_groups {motive : List Node → Prop}
    (step
      : ∀ nodes, (∀ children, .group children ∈ nodes → motive children) → motive nodes)
    (nodes : List Node)
    : motive nodes := by
  refine step nodes fun children member => ?_
  have smaller : sizeOf children < sizeOf nodes := by
    have inside := List.sizeOf_lt_of_mem member
    simp only [group.sizeOf_spec] at inside
    omega
  exact induction_on_groups step children
termination_by sizeOf nodes

/-- A group has an operator and does not end in one, or it is a single node that has a
value.
-/
def Sound (values : Valuation) (group : List Node) : Prop :=
  ((∃ op, .operator op ∈ group) ∧ ∀ op, group.getLast? ≠ some (.operator op))
  ∨ (∃ children, group = [.group children])
  ∨ ∃ order o, group = [.operand order o] ∧ (o.value? values).isSome

/-- The fault of a group without operators, which must be a single node that has a value.
-/
def plainFault? (values : Valuation) : List Node → Option SyntaxError
  | [.group _] => none
  | [.operand order o] =>
    match o.value? values with
    | some _ => none
    | none => some (.invalidComponent ⟨order, .operand o⟩)
  | _ => some .invalidFormula

/-- The fault of a group that is not sound: it ends in an operator, or it has none and is
at fault for that.
-/
def fault? (values : Valuation) (group : List Node) : Option SyntaxError :=
  match group.getLast? with
  | some (.operator op) => some (.danglingOperator op)
  | _ =>
    if group.any (·.operator?.isSome) then none else plainFault? values group

/-- A group ends in an operator, or ends in an operand after an operator, or has no
operator.
-/
inductive Shape : List Node → Prop
  | dangling (before : List Node) (op : Operator) : Shape (before ++ [.operator op])
  | applied {before : List Node} {last : Node} {op : Operator}
    (operand : last.operator? = none) (found : .operator op ∈ before)
    : Shape (before ++ [last])
  | plain {group : List Node} (operands : ∀ node ∈ group, node.operator? = none)
    : Shape group

theorem operator?_eq_some_iff {node : Node} {op : Operator}
    : node.operator? = some op ↔ node = .operator op := by
  cases node <;> simp [operator?]

/-- Every group has one of the shapes, by cases on whether it has an operator and on its
last node.
-/
theorem shape (group : List Node) : Shape group := by
  by_cases operands : ∀ node ∈ group, node.operator? = none
  · exact .plain operands
  · simp only [Classical.not_forall, Option.ne_none_iff_exists'] at operands
    obtain ⟨node, member, op, isOperator⟩ := operands
    obtain rfl := operator?_eq_some_iff.mp isOperator
    rcases List.eq_nil_or_concat group with rfl | ⟨before, last, rfl⟩
    · simp at member
    · rw [List.concat_eq_append] at member ⊢
      cases isLast : last.operator? with
      | some final =>
          obtain rfl := operator?_eq_some_iff.mp isLast
          exact .dangling before final
      | none =>
          have before : .operator op ∈ before := by
            rcases List.mem_append.mp member with earlier | atEnd
            · exact earlier
            · obtain rfl := List.mem_singleton.mp atEnd
              simp [operator?] at isLast
          exact .applied isLast before

theorem fault?_dangling (values : Valuation) (before : List Node) (op : Operator)
    : fault? values (before ++ [.operator op]) = some (.danglingOperator op) := by
  simp [fault?]

theorem fault?_applied (values : Valuation) {before : List Node} {last : Node}
    {op : Operator} (operand : last.operator? = none) (found : .operator op ∈ before)
    : fault? values (before ++ [last]) = none := by
  have any : (before ++ [last]).any (·.operator?.isSome) = true :=
    List.any_eq_true.mpr ⟨.operator op, by simp [found], rfl⟩
  cases last with
  | operator op => simp [operator?] at operand
  | operand order o => simp only [fault?, List.getLast?_concat, any, if_true]
  | group children => simp only [fault?, List.getLast?_concat, any, if_true]

theorem fault?_plain (values : Valuation) {group : List Node}
    (operands : ∀ node ∈ group, node.operator? = none)
    : fault? values group = plainFault? values group := by
  have any : group.any (·.operator?.isSome) = false := by
    simp only [List.any_eq_false, Bool.not_eq_true, Option.isSome_eq_false_iff,
      Option.isNone_iff_eq_none]
    exact operands
  simp only [fault?, any, Bool.false_eq_true, if_false]
  split
  · next op atEnd =>
      have isOperand := operands _ (List.mem_of_getLast? atEnd)
      simp [operator?] at isOperand
  · rfl

/-- A single node with a value is all that does without operators. -/
theorem plainFault?_eq_none_iff (values : Valuation) (group : List Node)
    : plainFault? values group = none
      ↔ (∃ children, group = [.group children])
        ∨ ∃ order o, group = [.operand order o] ∧ (o.value? values).isSome := by
  match group with
  | [] => simp [plainFault?]
  | [.group children] => simp [plainFault?]
  | [.operand order o] =>
      cases found : o.value? values with
      | some v =>
          simp only [plainFault?, found, true_iff]
          exact .inr ⟨order, o, rfl, by simp [found]⟩
      | none =>
          simp only [plainFault?, found, reduceCtorEq, false_iff]
          rintro (⟨children, same⟩ | ⟨_, _, same, set⟩)
          · exact nomatch same
          · obtain ⟨rfl, rfl⟩ := Node.operand.inj (List.singleton_inj.mp same)
            simp [found] at set
  | [.operator op] => simp [plainFault?]
  | first :: second :: more => simp [plainFault?]

/-- A group is sound exactly when it has no fault, by cases on its shape. -/
theorem fault?_eq_none_iff (values : Valuation) (group : List Node)
    : fault? values group = none ↔ Sound values group := by
  cases shape group with
  | dangling before op =>
      simp [fault?_dangling, Sound, List.append_eq_singleton_iff]
  | @applied before last op operand found =>
      simp only [fault?_applied values operand found, true_iff]
      refine .inl ⟨⟨op, by simp [found]⟩, ?_⟩
      intro final atEnd
      obtain rfl : last = .operator final := by simpa using atEnd
      simp [operator?] at operand
  | plain operands =>
      have noOperator : ¬∃ op, .operator op ∈ group := by
        rintro ⟨op, member⟩
        simpa [operator?] using operands _ member
      simp only [fault?_plain values operands, plainFault?_eq_none_iff, Sound, noOperator,
        false_and, false_or]

-----------------------------------------------------------------------------------------
-- Which variables have values
-----------------------------------------------------------------------------------------

/-- The fault of a group depends on its variables only by which of them have values. -/
theorem fault?_congr {first second : Valuation} {group : List Node}
    (agree
      : ∀ order path,
          .operand order (.var path) ∈ group → (first path).isSome = (second path).isSome)
    : fault? first group = fault? second group := by
  have plain : plainFault? first group = plainFault? second group := by
    match group with
    | [] | [.group _] | [.operator _] => rfl
    | _ :: _ :: _ => simp only [plainFault?]
    | [.operand order (.literal v)] => rfl
    | [.operand order (.var path)] =>
        have same := agree order path (by simp)
        cases left : first path <;> cases right : second path <;>
          simp [plainFault?, Operand.value?, left, right] at same ⊢
  simp only [fault?, plain]

theorem symbols_subset_flatten {node : Node} {nodes : List Node} (member : node ∈ nodes)
    : node.symbols ⊆ flatten nodes := by
  obtain ⟨before, after, rfl⟩ := List.append_of_mem member
  intro symbol occurs
  simp [flatten, occurs]

theorem flatten_of_mem {nodes children : List Node} (member : .group children ∈ nodes)
    : flatten children ⊆ flatten nodes := by
  intro symbol occurs
  exact symbols_subset_flatten member (by simp [symbols, occurs])

/-- The symbols of a group inside nodes are symbols of the nodes, by induction on the trees among
them.
-/
theorem flatten_of_closedIn (nodes group : List Node) (member : group ∈ closedIn nodes)
    : flatten group ⊆ flatten nodes := by
  induction nodes using induction_on_groups with
  | step nodes ih =>
      obtain ⟨children, among, inside⟩ := mem_closedIn_iff.mp member
      rcases mem_groups_iff.mp inside with inner | rfl
      · exact List.Subset.trans (ih children among inner) (flatten_of_mem among)
      · exact flatten_of_mem among

/-- A variable in a group of a formula's tree is a variable of the formula. -/
theorem var_mem_variablePaths {f : Formula} {nodes group : List Node}
    (parsed : ofComponents f.components = .ok nodes) (member : group ∈ groups nodes)
    {order : UInt32} {path : String} (occurs : .operand order (.var path) ∈ group)
    : path ∈ f.variablePaths := by
  have inside : flatten group ⊆ flatten nodes := by
    rcases mem_groups_iff.mp member with inner | rfl
    · exact flatten_of_closedIn nodes group inner
    · exact List.Subset.refl _
  have symbol : Symbol.operand (.var path) ∈ flatten nodes :=
    inside (symbols_subset_flatten occurs (by simp [symbols]))
  rw [flatten_ofComponents parsed] at symbol
  obtain ⟨c, member, same⟩ := List.mem_map.mp symbol
  simp only [Formula.variablePaths, List.mem_eraseDups, List.mem_filterMap]
  exact ⟨c, member, by simp [Component.path?, same]⟩

end Node

end RowFormula
