import RowFormula.Formula.Trace
import RowFormula.Proofs.Formula.Relabeling

/-! Only the relative order of components matters: not where they are stored, and not which
numbers their orders are. Of several orders that are shared the least is reported wherever they
stand.
-/

namespace RowFormula

/-- Components with different orders are read alike wherever they are stored. -/
theorem inOrder_eq_of_perm {cs ds : List Component} (perm : cs.Perm ds)
    (distinct : ∀ order, ¬SharesOrder cs order)
    : inOrder cs = inOrder ds := by
  have distinctToo : ∀ order, ¬SharesOrder ds order := fun order shared =>
    distinct order ((sharesOrder_perm perm order).mpr shared)
  refine List.Perm.eq_of_pairwise ?_ (Node.inOrder_strict distinct)
    (Node.inOrder_strict distinctToo)
    (((inOrder_perm cs).trans perm).trans (inOrder_perm ds).symm)
  intro a b _ _ less more
  exact absurd (UInt32.lt_trans less more) (UInt32.lt_irrefl _)

/-- Components have the same tree or the same fault wherever they are stored. -/
theorem Node.ofComponents_eq_of_perm {cs ds : List Component} (perm : cs.Perm ds)
    : ofComponents cs = ofComponents ds := by
  by_cases shared : ∃ order, SharesOrder cs order
  · obtain ⟨order, shared⟩ := shared
    obtain ⟨least, reported, sharedLeast, below⟩ := ofComponents_shared shared
    obtain ⟨other, reportedToo, sharedOther, belowToo⟩ :=
      ofComponents_shared ((sharesOrder_perm perm order).mp shared)
    have same : least = other :=
      UInt32.le_antisymm (below other ((sharesOrder_perm perm other).mpr sharedOther))
        (belowToo least ((sharesOrder_perm perm least).mp sharedLeast))
    rw [reported, reportedToo, same]
  · have distinct : ∀ order, ¬SharesOrder cs order := fun order sharesIt =>
      shared ⟨order, sharesIt⟩
    simp only [ofComponents, inOrder_eq_of_perm perm distinct, perm.isEmpty_eq]

/-- Only the relative order of components matters. A formula whose components are stored in
another sequence has the same tree and the same value, or the same fault; if no two components
share an order, it has the same variables and the same trace. A formula whose orders are
renumbered without changing their sequence has the same value or the same fault, which then
names the new order.
-/
theorem relative_order_decides (f : Formula)
    : (∀ components : List Component,
        components.Perm f.components
        → let stored : Formula := { f with components }
          Node.ofComponents components = Node.ofComponents f.components
          ∧ (∀ values, stored.evaluate values = f.evaluate values)
          ∧ ((∀ order, ¬SharesOrder f.components order)
            → stored.variablePaths = f.variablePaths
              ∧ ∀ values rowIds,
                  (ExpressionTrace.build components values rowIds).tokens
                  = (ExpressionTrace.build f.components values rowIds).tokens))
      ∧ ∀ order : UInt32 → UInt32,
          (∀ a ∈ f.components, ∀ b ∈ f.components,
            a.order < b.order → order a.order < order b.order)
          → let renumbered : Formula :=
              { f with components := f.components.map fun c => { c with order := order c.order } }
            ∀ values,
              renumbered.evaluate values
              = (f.evaluate values).mapError (Relabeling.fault { order }) := by
  constructor
  · intro components perm stored
    have tree := Node.ofComponents_eq_of_perm perm
    refine ⟨tree, fun values => ?_, fun distinct => ?_⟩
    · simp only [Formula.evaluate, stored, tree]
    · have read := (inOrder_eq_of_perm perm.symm distinct).symm
      refine ⟨?_, fun values rowIds => ?_⟩
      · simp only [Formula.variablePaths, stored, read]
      · simp only [ExpressionTrace.build, read]
  · intro order ascends renumbered values
    have components : (f.components.map fun c => { c with order := order c.order })
        = f.components.map (Relabeling.component { order }) :=
      List.map_congr_left fun c _ => (Relabeling.component_of_order order c).symm
    simp only [renumbered, components]
    exact Relabeling.evaluate_formula_relabeled { order } ascends fun _ => rfl

/-- A difference whose right side is stored first, and a closing parenthesis without an opening
one, both with orders that are then doubled.
-/
theorem relative_order_decides_doubled
    : let first : Component := ⟨3, .operand (.var "x")⟩
      let minus : Component := ⟨5, .operator .subtract⟩
      let second : Component := ⟨9, .operand (.literal (.text "7"))⟩
      let f : Formula := { id := "f", components := [second, first, minus] }
      let closed : Formula := { id := "g", components := [first, ⟨8, .closing⟩, minus] }
      let doubled (c : Component) : Component := { c with order := 2 * c.order }
      let sorted : List Component := [first, minus, second]
      let none : Valuation := fun _ => none
      sorted.Perm f.components
      ∧ (∀ order, ¬SharesOrder f.components order)
      ∧ Formula.variablePaths { f with components := sorted } = f.variablePaths
      ∧ Formula.evaluate { f with components := sorted } none = f.evaluate none
      ∧ (∀ a ∈ closed.components, ∀ b ∈ closed.components,
          a.order < b.order → 2 * a.order < 2 * b.order)
      ∧ closed.evaluate none = .error (.unmatchedClose 8)
      ∧ Formula.evaluate { closed with components := closed.components.map doubled } none
        = .error (.unmatchedClose 16) := by
  intro first minus second f closed doubled sorted none
  have perm : sorted.Perm f.components := by
    change ([first, minus] ++ [second]).Perm ([second] ++ [first, minus])
    exact List.perm_append_comm
  have once : (f.components.map (·.order)).Nodup := by decide
  have distinct := nodup_order_iff.mp once
  have ascends : ∀ a ∈ closed.components, ∀ b ∈ closed.components,
      a.order < b.order → 2 * a.order < 2 * b.order := by decide
  have fails : closed.evaluate none = .error (.unmatchedClose 8) := by cbv
  obtain ⟨_, value, same⟩ := (relative_order_decides f).1 sorted perm
  have renumbered := (relative_order_decides closed).2 (2 * ·) ascends none
  rw [fails] at renumbered
  exact ⟨perm, distinct, (same distinct).1, value none, ascends, fails, renumbered⟩

end RowFormula
