import RowFormula.Proofs.Formula.Balance
import RowFormula.Proofs.Formula.Flattening
import RowFormula.Proofs.Formula.Ordering

/-! How deep groups are nested, counted while components are read: an opening leads one level
deeper and a closing one level back. The depth of a tree is the deepest level that is reached.
-/

namespace RowFormula

/-- The level of nesting behind components: how many groups they open less how many they
close.
-/
def level (cs : List Component) : Int :=
  openings cs - closings cs

/-- The levels that are reached in reading components, one behind each of their beginnings.
-/
def levels (cs : List Component) : Set Int :=
  {reached | ∃ before, before <+: cs ∧ level before = reached}

@[simp] theorem level_nil : level [] = 0 := rfl

@[simp] theorem level_append (first second : List Component)
    : level (first ++ second) = level first + level second := by
  simp only [level, openings_append, closings_append]
  omega

theorem level_opening {c : Component} (opens : c.isOpening) : level [c] = 1 := by
  simp [level, opens, c.isClosing_of_isOpening opens]

theorem level_closing {c : Component} (closes : c.isClosing) : level [c] = -1 := by
  simp [level, closes, c.isOpening_of_isClosing closes]

theorem level_plain {c : Component} (noOpening : c.isOpening = false)
    (noClosing : c.isClosing = false)
    : level [c] = 0 := by
  simp [level, noOpening, noClosing]

-----------------------------------------------------------------------------------------
-- The levels of components that are put together
-----------------------------------------------------------------------------------------

theorem levels_nil : levels [] = {0} := by
  ext reached
  simp [levels, eq_comm]

/-- A single component is read at level zero and leads to its own level. -/
theorem levels_singleton (c : Component) : levels [c] = {0, level [c]} := by
  ext reached
  simp [levels, List.prefix_cons_iff, eq_comm]

/-- What follows components starts from the level behind them. -/
theorem levels_append (first second : List Component)
    : levels (first ++ second) = levels first ∪ (level first + ·) '' levels second := by
  ext reached
  constructor
  · rintro ⟨before, begins, rfl⟩
    rcases List.prefix_or_prefix_of_prefix begins (List.prefix_append first second)
      with inFirst | ⟨more, rfl⟩
    · exact .inl ⟨before, inFirst, rfl⟩
    · have inSecond := (List.prefix_append_right_inj first).mp begins
      exact .inr ⟨level more, ⟨more, inSecond, rfl⟩, (level_append first more).symm⟩
  · rintro (⟨before, inFirst, rfl⟩ | ⟨_, ⟨more, inSecond, rfl⟩, rfl⟩)
    · exact ⟨before, inFirst.trans (List.prefix_append first second), rfl⟩
    · exact ⟨first ++ more, (List.prefix_append_right_inj first).mpr inSecond,
        level_append first more⟩

/-- The greatest level of components that are put together is reached in the first ones or,
above the level behind these, in the others.
-/
theorem isGreatest_levels_append {first second : List Component} {most next : Int}
    (left : IsGreatest (levels first) most) (right : IsGreatest (levels second) next)
    : IsGreatest (levels (first ++ second)) (max most (level first + next)) := by
  have raised : IsGreatest ((level first + ·) '' levels second) (level first + next) :=
    (add_right_mono (a := level first)).map_isGreatest right
  rw [levels_append]
  exact left.union raised

-----------------------------------------------------------------------------------------
-- Components whose groups are all closed again
-----------------------------------------------------------------------------------------

/-- Components close all groups that they open, and nest them to a depth and not deeper. -/
structure NestedTo (depth : Nat) (cs : List Component) : Prop where
  closed : level cs = 0
  greatest : IsGreatest (levels cs) depth

theorem NestedTo.nil : NestedTo 0 [] where
  closed := level_nil
  greatest := by
    rw [levels_nil]
    exact isGreatest_singleton

theorem NestedTo.plain {c : Component} (noOpening : c.isOpening = false)
    (noClosing : c.isClosing = false)
    : NestedTo 0 [c] where
  closed := level_plain noOpening noClosing
  greatest := by
    rw [levels_singleton, level_plain noOpening noClosing]
    exact isGreatest_pair

/-- Of neighbours the deeper ones count. -/
theorem NestedTo.append {first second : List Component} {depth next : Nat}
    (left : NestedTo depth first) (right : NestedTo next second)
    : NestedTo (max depth next) (first ++ second) where
  closed := by rw [level_append, left.closed, right.closed, add_zero]
  greatest := by
    have both := isGreatest_levels_append left.greatest right.greatest
    rwa [left.closed, zero_add, ← Nat.cast_max] at both

/-- Parentheses nest what is between them one level deeper. -/
theorem NestedTo.group {opening closing : Component} {inner : List Component} {depth : Nat}
    (inside : NestedTo depth inner) (opens : opening.isOpening) (closes : closing.isClosing)
    : NestedTo (1 + depth) (opening :: inner ++ [closing]) where
  closed := by
    rw [List.cons_append, ← List.singleton_append, level_append, level_append,
      level_opening opens, inside.closed, level_closing closes]
    rfl
  greatest := by
    have opened : IsGreatest (levels [opening]) 1 := by
      rw [levels_singleton, level_opening opens]
      exact isGreatest_pair
    have ended : IsGreatest (levels [closing]) 0 := by
      rw [levels_singleton, level_closing closes]
      exact isGreatest_pair
    have whole := isGreatest_levels_append opened
      (isGreatest_levels_append inside.greatest ended)
    -- The closing leads back to the level of the opening, so that it adds no deeper one.
    have deepest : max 1 (1 + max (depth : Int) (0 + 0)) = (1 + depth : Nat) := by omega
    rwa [level_opening opens, inside.closed, deepest] at whole

namespace Node

mutual

/-- Components with the symbols of a node are nested to its depth. -/
theorem nestedTo_symbols (node : Node) (cs : List Component)
    (spelled : cs.map (·.symbol) = node.symbols)
    : NestedTo node.depth cs := by
  cases node with
  | operand _ _ | operator _ =>
      obtain ⟨c, rfl, symbol⟩ := List.map_eq_singleton_iff.mp spelled
      have noOpening : c.isOpening = false := by simp [Component.isOpening, symbol]
      have noClosing : c.isClosing = false := by simp [Component.isClosing, symbol]
      exact .plain noOpening noClosing
  | group children =>
      obtain ⟨first, inner, last, rfl, opens, inside, closes⟩ := exists_of_symbols_group spelled
      have nested : NestedTo (depthOf children) inner :=
        nestedTo_flatten children inner inside
      have firstOpens : first.isOpening := by simp [Component.isOpening, opens]
      have lastCloses : last.isClosing := by simp [Component.isClosing, closes]
      exact nested.group firstOpens lastCloses

/-- Components with the symbols of a tree are nested to its depth, by induction on its nodes.
-/
theorem nestedTo_flatten (nodes : List Node) (cs : List Component)
    (spelled : cs.map (·.symbol) = flatten nodes)
    : NestedTo (depthOf nodes) cs := by
  cases nodes with
  | nil =>
      obtain rfl := List.map_eq_nil_iff.mp spelled
      exact .nil
  | cons node rest =>
      obtain ⟨front, back, rfl, frontSpelled, backSpelled⟩ := List.map_eq_append_iff.mp spelled
      exact (nestedTo_symbols node front frontSpelled).append
        (nestedTo_flatten rest back backSpelled)

end

end Node

open Node in
/-- The depth of the tree of components is the greatest of the levels that are reached when
they are read in ascending order.
-/
theorem depth_greatest_level {components : List Component} {nodes : List Node}
    (parsed : ofComponents components = .ok nodes)
    : (inOrder components).Perm components
      ∧ (inOrder components).Pairwise (·.order < ·.order)
      ∧ IsGreatest (levels (inOrder components)) (depthOf nodes) := by
  have spelled : (inOrder components).map (·.symbol) = flatten nodes :=
    (flatten_ofComponents parsed).symm
  have nested : NestedTo (depthOf nodes) (inOrder components) :=
    nestedTo_flatten nodes (inOrder components) spelled
  exact ⟨inOrder_perm components, ascending_of_ofComponents parsed, nested.greatest⟩

open Node in
/-- In `( ( x ) ( ) ) + ( )`, stored out of order, two groups are open at most. -/
theorem depth_greatest_level_siblings
    : let components : List Component :=
        [⟨10, .closing⟩, ⟨2, .opening⟩, ⟨8, .operator .add⟩, ⟨5, .opening⟩, ⟨4, .closing⟩,
          ⟨1, .opening⟩, ⟨3, .operand (.var "x")⟩, ⟨9, .opening⟩, ⟨7, .closing⟩, ⟨6, .closing⟩]
      let tree : List Node :=
        [.group [.group [.operand 3 (.var "x")], .group []], .operator .add, .group []]
      ofComponents components = .ok tree
      ∧ depthOf tree = 2
      ∧ IsGreatest (levels (inOrder components)) (depthOf tree) := by
  intro components tree
  have parsed : ofComponents components = .ok tree := by cbv
  exact ⟨parsed, rfl, (depth_greatest_level parsed).2.2⟩

end RowFormula
