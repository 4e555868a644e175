import Mathlib
import RowFormula.Proofs.Evaluation.Groups
import RowFormula.Proofs.Outcome

/-! When evaluation fails: with the fault of the first group that has one, in the order in
which groups are closed. What was read of a group shows in its progress, and a group that
was read to its end fails with its own fault.
-/

namespace RowFormula

namespace Node

-----------------------------------------------------------------------------------------
-- What the progress of a group says about the nodes read
-----------------------------------------------------------------------------------------

/-- The progress after reading nodes shows their last operator, whether they end in an
operand, how many operands there are, and of a single node what it is.
-/
structure Summarizes (values : Valuation) (read : List Node) (p : Progress) : Prop where
  pending : p.pending = (read.filterMap operator?).getLast?
  filled : p.filled = read.getLast?.any (·.operator?.isNone)
  operands : p.operands = read.countP (·.operator?.isNone)
  start : read = [] → p = {}
  alone : ∀ node, read = [node] → advance values {} node = .ok p

theorem Summarizes.nil (values : Valuation) : Summarizes values [] {} where
  pending := rfl
  filled := rfl
  operands := rfl
  start := fun _ => rfl
  alone := fun _ single => nomatch single

/-- Reading an operand or a group fills the side that is open. -/
theorem Summarizes.fill {values : Valuation} {read : List Node} {p q : Progress}
    {node : Node} (summary : Summarizes values read p) (operand : node.operator? = none)
    (pending : q.pending = p.pending) (filled : q.filled = true)
    (operands : q.operands = p.operands + 1)
    (alone : ∀ single, read ++ [node] = [single] → advance values {} single = .ok q)
    : Summarizes values (read ++ [node]) q where
  pending := by simp [pending, summary.pending, operand]
  filled := by simp [filled, operand]
  operands := by simp [operands, summary.operands, operand]
  start := by simp
  alone := alone

/-- Reading one more node keeps the summary, by cases on the node. -/
theorem Summarizes.snoc {values : Valuation} {read : List Node} {p q : Progress}
    {node : Node} (summary : Summarizes values read p)
    (advanced : advance values p node = .ok q)
    : Summarizes values (read ++ [node]) q := by
  have alone : ∀ single, read ++ [node] = [single] → advance values {} single = .ok q := by
    intro single same
    cases read with
    | nil =>
        obtain rfl : node = single := by simpa using same
        exact summary.start rfl ▸ advanced
    | cons head rest => simp at same
  cases node with
  | operand order o =>
      rcases advance_operand_eq_ok advanced with ⟨v, _, rfl⟩ | ⟨_, rfl⟩
      · exact summary.fill rfl rfl rfl rfl alone
      · exact summary.fill rfl rfl rfl rfl alone
  | operator op =>
      obtain rfl := Except.ok.inj advanced
      refine ⟨?_, ?_, ?_, by simp, alone⟩
      · simp [Progress.takeOperator, operator?]
      · simp [Progress.takeOperator, operator?]
      · simp [Progress.takeOperator, summary.operands, operator?]
  | group children =>
      rw [advance_group] at advanced
      obtain ⟨v, _, rfl⟩ := Except.map_eq_ok_iff.mp advanced
      exact summary.fill rfl rfl rfl rfl alone

/-- Reading nodes one after another summarizes them all, by induction on the nodes. -/
theorem Summarizes.append {values : Valuation} {read nodes : List Node} {p q : Progress}
    (summary : Summarizes values read p) (advanced : advanceAll values p nodes = .ok q)
    : Summarizes values (read ++ nodes) q := by
  induction nodes generalizing read p with
  | nil =>
      obtain rfl := Except.ok.inj advanced
      simpa using summary
  | cons node rest ih =>
      rw [advanceAll_cons] at advanced
      obtain ⟨middle, step, others⟩ := Except.bind_eq_ok_iff.mp advanced
      simpa using ih (summary.snoc step) others

-----------------------------------------------------------------------------------------
-- The first fault decides
-----------------------------------------------------------------------------------------

/-- An outcome reports a fault, or is a success when there is none. -/
def Reports {α : Type} (fault : Option SyntaxError) (outcome : Except SyntaxError α) : Prop :=
  match fault with
  | some e => outcome = .error e
  | none => ∃ a, outcome = .ok a

/-- Finishing a group without operators, by cases on the number of nodes and on the one. -/
theorem Summarizes.finish_plain {values : Valuation} {nodes : List Node} {p : Progress}
    (summary : Summarizes values nodes p) (pending : p.pending = none)
    (counted : p.operands = nodes.length)
    : Reports (plainFault? values nodes) p.finish := by
  match nodes with
  | [] =>
      obtain rfl := summary.start rfl
      rfl
  | [.operator op] =>
      obtain rfl := Except.ok.inj (summary.alone _ rfl)
      simp [Progress.takeOperator] at pending
  | [.operand order o] =>
      rcases advance_operand_eq_ok (summary.alone _ rfl) with ⟨v, found, rfl⟩ | ⟨found, rfl⟩
      · simp [plainFault?, found, Reports, Progress.finish, Progress.takeValue]
      · simp [plainFault?, found, Reports, Progress.finish, Progress.takeUnset]
  | [.group children] =>
      have alone := summary.alone _ rfl
      rw [advance_group] at alone
      obtain ⟨v, _, rfl⟩ := Except.map_eq_ok_iff.mp alone
      simp [plainFault?, Reports, Progress.finish, Progress.takeValue]
  | first :: second :: more =>
      simp [plainFault?, Reports, Progress.finish, pending, counted]

/-- A group that was read to its end is finished with its own fault. -/
theorem Summarizes.finish {values : Valuation} {nodes : List Node} {p : Progress}
    (summary : Summarizes values nodes p)
    : Reports (fault? values nodes) p.finish := by
  cases shape nodes with
  | dangling before op =>
      have pending : p.pending = some op := by simp [summary.pending, operator?]
      have filled : p.filled = false := by simp [summary.filled, operator?]
      simp [fault?_dangling, Reports, Progress.finish, pending, filled]
  | @applied before last op operand found =>
      have filled : p.filled = true := by simp [summary.filled, operand]
      cases waiting : p.pending with
      | some final =>
          simp [fault?_applied values operand found, Reports, Progress.finish, waiting, filled]
      | none =>
          have absent := summary.pending.symm.trans waiting
          simp only [List.getLast?_eq_none_iff, List.filterMap_eq_nil_iff] at absent
          simpa [operator?] using absent (.operator op) (by simp [found])
  | plain operands =>
      have pending : p.pending = none := by
        rw [summary.pending, List.filterMap_eq_nil_iff.mpr operands]
        rfl
      have counted : p.operands = nodes.length := by
        rw [summary.operands, List.countP_eq_length]
        intro node member
        simp [operands node member]
      rw [fault?_plain values operands]
      exact summary.finish_plain pending counted

/-- A chain reports the fault of its first link, and otherwise that of the second. -/
theorem Reports.bind {α β : Type} {first second : Option SyntaxError}
    {outcome : Except SyntaxError α} {next : α → Except SyntaxError β}
    (head : Reports first outcome)
    (tail : ∀ a, outcome = .ok a → Reports second (next a))
    : Reports (first.or second) (outcome.bind next) := by
  cases first with
  | some e =>
      obtain rfl : outcome = .error e := head
      rfl
  | none =>
      obtain ⟨a, ok⟩ := head
      simpa [ok, Except.bind] using tail a ok

theorem Reports.map {α β : Type} {fault : Option SyntaxError} {outcome : Except SyntaxError α}
    (reported : Reports fault outcome) (f : α → β)
    : Reports fault (outcome.map f) := by
  cases fault with
  | some e =>
      obtain rfl : outcome = .error e := reported
      rfl
  | none =>
      obtain ⟨a, rfl⟩ := reported
      exact ⟨f a, rfl⟩

theorem Reports.eq_error_iff {α : Type} {fault : Option SyntaxError}
    {outcome : Except SyntaxError α} (reported : Reports fault outcome) (e : SyntaxError)
    : outcome = .error e ↔ fault = some e := by
  cases fault with
  | some found =>
      obtain rfl : outcome = .error found := reported
      simp
  | none =>
      obtain ⟨a, rfl⟩ := reported
      simp

theorem Reports.eq_ok_iff {α : Type} {fault : Option SyntaxError}
    {outcome : Except SyntaxError α} (reported : Reports fault outcome)
    : (∃ a, outcome = .ok a) ↔ fault = none := by
  cases fault with
  | some found =>
      obtain rfl : outcome = .error found := reported
      simp
  | none =>
      obtain ⟨a, rfl⟩ := reported
      simp

mutual

/-- Reading a node reports the first fault among the groups that it closes. -/
theorem advance_reports (values : Valuation) (p : Progress) (node : Node)
    : Reports (node.closed.findSome? (fault? values)) (advance values p node) := by
  cases node with
  | operand order o =>
      cases found : o.value? values with
      | some v => exact ⟨_, advance_operand_of_some found p order⟩
      | none => exact ⟨_, advance_operand_of_none found p order⟩
  | operator op => exact ⟨_, rfl⟩
  | group children =>
      rw [advance_group]
      refine Reports.map ?_ _
      rw [closed, List.findSome?_append]
      refine (advanceAll_reports values {} children).bind fun inner read => ?_
      have summary := (Summarizes.nil values).append read
      simpa only [List.findSome?_singleton, List.nil_append] using summary.finish

/-- Reading nodes reports the first fault among the groups that they close, by induction on
the nodes.
-/
theorem advanceAll_reports (values : Valuation) (p : Progress) (nodes : List Node)
    : Reports ((closedIn nodes).findSome? (fault? values)) (advanceAll values p nodes) := by
  cases nodes with
  | nil => exact ⟨p, rfl⟩
  | cons node rest =>
      rw [advanceAll_cons, closedIn, List.findSome?_append]
      exact (advance_reports values p node).bind fun middle _ =>
        advanceAll_reports values middle rest

end

/-- Evaluating a group reports the first fault among its groups, the group itself last. -/
theorem evaluate_reports (values : Valuation) (nodes : List Node)
    : Reports ((groups nodes).findSome? (fault? values)) (evaluate values nodes) := by
  rw [groups, List.findSome?_append]
  refine (advanceAll_reports values {} nodes).bind fun q read => ?_
  have summary := (Summarizes.nil values).append read
  simpa only [List.findSome?_singleton, List.nil_append] using summary.finish

end Node

/-- A formula reports the first fault among the groups of its tree. -/
theorem Formula.evaluate_reports {f : Formula} {nodes : List Node}
    (parsed : Node.ofComponents f.components = .ok nodes) (values : Valuation)
    : Node.Reports ((Node.groups nodes).findSome? (Node.fault? values))
        (f.evaluate values) := by
  simpa only [Formula.evaluate, parsed, Except.bind]
    using (Node.evaluate_reports values nodes).map f.resultAs.cast

/-- A formula whose parentheses match has a value exactly when all its groups are sound.
Otherwise it fails with the fault of the first group that has one, in the order in which
groups are closed. So two valuations of the same variables, whatever the values, both give
a value or both fail alike.
-/
theorem evaluate_reports_first_fault (f : Formula) (nodes : List Node)
    (parsed : Node.ofComponents f.components = .ok nodes)
    : (∀ values,
        (∃ v, f.evaluate values = .ok v)
        ↔ ∀ group ∈ Node.groups nodes, Node.Sound values group)
      ∧ (∀ values e,
          f.evaluate values = .error e
          ↔ (Node.groups nodes).findSome? (Node.fault? values) = some e)
      ∧ ∀ first second : Valuation,
          (∀ path ∈ f.variablePaths, (first path).isSome = (second path).isSome)
          → (∃ v w, f.evaluate first = .ok v ∧ f.evaluate second = .ok w)
            ∨ ∃ e, f.evaluate first = .error e ∧ f.evaluate second = .error e := by
  refine ⟨?_, ?_, ?_⟩
  · intro values
    rw [(Formula.evaluate_reports parsed values).eq_ok_iff, List.findSome?_eq_none_iff]
    exact forall₂_congr fun group _ => Node.fault?_eq_none_iff values group
  · intro values e
    exact (f.evaluate_reports parsed values).eq_error_iff e
  · intro first second agree
    have same : (Node.groups nodes).findSome? (Node.fault? first)
        = (Node.groups nodes).findSome? (Node.fault? second) := by
      have faults : (Node.groups nodes).map (Node.fault? first)
          = (Node.groups nodes).map (Node.fault? second) := by
        refine List.map_congr_left fun group member => Node.fault?_congr ?_
        intro order path occurs
        exact agree path (Node.var_mem_variablePaths parsed member occurs)
      simpa only [List.findSome?_map, Function.id_comp]
        using congrArg (List.findSome? id) faults
    have reported := Formula.evaluate_reports parsed first
    have alike := Formula.evaluate_reports parsed second
    cases fault : (Node.groups nodes).findSome? (Node.fault? first) with
    | some e =>
        exact .inr ⟨e, (reported.eq_error_iff e).mpr fault,
          (alike.eq_error_iff e).mpr (same ▸ fault)⟩
    | none =>
        obtain ⟨v, ok⟩ := reported.eq_ok_iff.mpr fault
        obtain ⟨w, alsoOk⟩ := alike.eq_ok_iff.mpr (same ▸ fault)
        exact .inl ⟨v, w, ok, alsoOk⟩

/-- In `( x ) +` the group of the unset `x` is at fault before the formula that ends in an
operator; once `x` is set, to whatever value, only the latter is.
-/
theorem evaluate_reports_inner_fault
    : let f : Formula :=
        .ofSymbols "f" [.opening, .operand (.var "x"), .closing, .operator .add]
      let nodes : List Node := [.group [.operand 1 (.var "x")], .operator .add]
      Node.ofComponents f.components = .ok nodes
      ∧ f.evaluate (fun _ => none)
        = .error (.invalidComponent ⟨1, .operand (.var "x")⟩)
      ∧ ((∃ v w,
            f.evaluate (fun _ => some (.bool true)) = .ok v
            ∧ f.evaluate (fun _ => some .null) = .ok w)
          ∨ ∃ e,
              f.evaluate (fun _ => some (.bool true)) = .error e
              ∧ f.evaluate (fun _ => some .null) = .error e) := by
  intro f nodes
  have parsed : Node.ofComponents f.components = .ok nodes := by cbv
  obtain ⟨_, fails, alike⟩ := evaluate_reports_first_fault f nodes parsed
  exact ⟨parsed, (fails _ _).mpr rfl, alike _ _ fun _ _ => rfl⟩

end RowFormula
