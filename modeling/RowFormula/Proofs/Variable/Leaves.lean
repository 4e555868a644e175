import RowFormula.Variable.Aggregate

/-! The functions of several values see only the leaves: what is left, in order, when lists are
opened at every depth and nulls are dropped. How the leaves were grouped does not matter.
-/

namespace RowFormula

-----------------------------------------------------------------------------------------
-- Opening lists
-----------------------------------------------------------------------------------------

namespace Value

mutual

/-- The values inside a value when lists are opened at every depth, nulls among them. A range is
not opened.
-/
def opened : Value → List Value
  | list items => openedItems items
  | v => [v]

def openedItems : List Value → List Value
  | [] => []
  | item :: rest => item.opened ++ openedItems rest

end

/-- A value that is neither null nor a list. -/
def IsLeaf (v : Value) : Prop :=
  v ≠ null ∧ ∀ items, v ≠ list items

mutual

/-- Leaves are what is left of the opened values without the nulls. -/
theorem leaves_eq : (v : Value) → v.leaves = v.opened.filter (!·.isNull)
  | null | number _ | bool _ | text _ | date _ | range .. => rfl
  | list items => leavesOf_eq items

theorem leavesOf_eq : (values : List Value)
    → leavesOf values = (openedItems values).filter (!·.isNull)
  | [] => rfl
  | item :: rest => by
      rw [leavesOf, openedItems, List.filter_append, leaves_eq item, leavesOf_eq rest]

end

mutual

theorem isLeaf_of_mem_leaves : (v : Value) → ∀ leaf ∈ v.leaves, leaf.IsLeaf
  | null, _, member => absurd member List.not_mem_nil
  | number _, _, member | bool _, _, member | text _, _, member | date _, _, member
  | range .., _, member => by
      rw [List.mem_singleton.mp member]
      exact ⟨Value.noConfusion, fun _ => Value.noConfusion⟩
  | list items, leaf, member => isLeaf_of_mem_leavesOf items leaf member

theorem isLeaf_of_mem_leavesOf : (values : List Value) → ∀ leaf ∈ leavesOf values, leaf.IsLeaf
  | [], _, member => absurd member List.not_mem_nil
  | item :: rest, leaf, member => by
      rw [leavesOf, List.mem_append] at member
      rcases member with first | later
      · exact isLeaf_of_mem_leaves item leaf first
      · exact isLeaf_of_mem_leavesOf rest leaf later

end

@[simp]
theorem leavesOf_append (left right : List Value)
    : leavesOf (left ++ right) = leavesOf left ++ leavesOf right := by
  induction left with
  | nil => rfl
  | cons item rest ih => rw [List.cons_append, leavesOf, leavesOf, ih, List.append_assoc]

end Value

open Value

-----------------------------------------------------------------------------------------
-- Other groupings of the same leaves
-----------------------------------------------------------------------------------------

/-- One list of values comes from the other by putting stretches of it into lists, opening lists,
and adding or dropping nulls and empty lists, anywhere and at any depth.
-/
inductive Regrouped : List Value → List Value → Prop where
  | refl (values : List Value) : Regrouped values values
  | symm {values others : List Value} (back : Regrouped values others) : Regrouped others values
  | trans {values middle others : List Value} (first : Regrouped values middle)
      (second : Regrouped middle others) : Regrouped values others
  | opening (before items after : List Value)
      : Regrouped (before ++ .list items :: after) (before ++ items ++ after)
  | dropping (before after : List Value) : Regrouped (before ++ .null :: after) (before ++ after)
  | inside {items others : List Value} (regrouped : Regrouped items others)
      (before after : List Value)
      : Regrouped (before ++ .list items :: after) (before ++ .list others :: after)

namespace Regrouped

variable {values others : List Value}

/-- Regrouping keeps the leaves, by induction on its steps. -/
theorem leavesOf_eq (regrouped : Regrouped values others) : leavesOf values = leavesOf others := by
  induction regrouped with
  | refl => rfl
  | symm _ ih => exact ih.symm
  | trans _ _ first second => exact first.trans second
  | opening before items after => simp only [leavesOf_append, leavesOf, leaves, List.append_assoc]
  | dropping before after => simp only [leavesOf_append, leavesOf, leaves, List.nil_append]
  | inside _ before after ih => simp only [leavesOf_append, leavesOf, leaves, ih]

/-- What is regrouped may stand between other values. -/
theorem between (regrouped : Regrouped values others) (left right : List Value)
    : Regrouped (left ++ values ++ right) (left ++ others ++ right) := by
  induction regrouped with
  | refl values => exact .refl _
  | symm _ ih => exact ih.symm
  | trans _ _ first second => exact first.trans second
  | opening before items after =>
      simpa only [List.append_assoc, List.cons_append] using
        opening (left ++ before) items (after ++ right)
  | dropping before after =>
      simpa only [List.append_assoc, List.cons_append] using
        dropping (left ++ before) (after ++ right)
  | inside regrouped before after _ =>
      simpa only [List.append_assoc, List.cons_append] using
        regrouped.inside (left ++ before) (after ++ right)

mutual

/-- A value may be replaced by its leaves, by cases of the value. -/
theorem to_leaves : (v : Value) → Regrouped [v] v.leaves
  | .null => dropping [] []
  | .number _ | .bool _ | .text _ | .date _ | .range .. => .refl _
  | .list items => (by simpa using opening [] items [] : Regrouped [.list items] items).trans
      (to_leavesOf items)

theorem to_leavesOf : (values : List Value) → Regrouped values (leavesOf values)
  | [] => .refl _
  | item :: rest => by
      have first : Regrouped (item :: rest) (item.leaves ++ rest) :=
        (to_leaves item).between [] rest
      have later : Regrouped (item.leaves ++ rest) (item.leaves ++ leavesOf rest) := by
        simpa only [List.append_nil] using (to_leavesOf rest).between item.leaves []
      exact first.trans later

end

/-- Two lists of values are groupings of each other exactly when they have the same leaves. -/
theorem iff_leavesOf_eq : Regrouped values others ↔ leavesOf values = leavesOf others := by
  refine ⟨leavesOf_eq, fun same => ?_⟩
  have back := (to_leavesOf others).symm
  rw [← same] at back
  exact (to_leavesOf values).trans back

end Regrouped

-----------------------------------------------------------------------------------------
-- What the functions give
-----------------------------------------------------------------------------------------

namespace Aggregator

/-- The best item is one of the items. -/
theorem best_eq_null_or_mem {α : Type} (better : α → α → Bool) (write : α → Value)
    (items : List α)
    : best better write items = .null ∨ ∃ item ∈ items, best better write items = write item := by
  cases items with
  | nil => exact .inl rfl
  | cons first rest =>
      refine .inr ⟨_, ?_, rfl⟩
      induction rest generalizing first with
      | nil => exact List.mem_singleton_self first
      | cons item rest ih =>
          rw [List.foldl_cons]
          split
          · exact List.mem_cons_of_mem _ (ih item)
          · rcases List.mem_cons.mp (ih first) with kept | later
            · rw [kept]
              exact List.mem_cons_self
            · exact List.mem_cons_of_mem _ (List.mem_cons_of_mem _ later)

/-- The extreme of items that are no lists is no list. -/
theorem extreme_ne_list {items : List Value} (leaves : ∀ item ∈ items, item.IsLeaf)
    (better : Float → Float → Bool) (inner : List Value)
    : extreme better items ≠ .list inner := by
  rw [extreme]
  split
  · rcases best_eq_null_or_mem (fun a b => better a.toNumber b.toNumber) id items with
      nothing | ⟨item, member, taken⟩
    · rw [nothing]
      exact Value.noConfusion
    · rw [taken]
      exact (leaves item member).2 inner
  · rcases best_eq_null_or_mem better .number (numbers items) with nothing | ⟨x, -, taken⟩
    · rw [nothing]
      exact Value.noConfusion
    · rw [taken]
      exact Value.noConfusion

/-- No function gives a list, by cases of the function. -/
theorem reduce_ne_list {items : List Value} (leaves : ∀ item ∈ items, item.IsLeaf)
    (f : Aggregator) (inner : List Value)
    : f.reduce items ≠ .list inner := by
  cases f with
  | count | sum | join => exact Value.noConfusion
  | avg =>
      rw [reduce]
      split <;> exact Value.noConfusion
  | min => exact extreme_ne_list leaves _ inner
  | max => exact extreme_ne_list leaves _ inner
  | first =>
      rw [reduce]
      cases taken : items.head? with
      | none => exact Value.noConfusion
      | some item => exact (leaves item (List.mem_of_head? taken)).2 inner
  | last =>
      rw [reduce]
      cases taken : items.getLast? with
      | none => exact Value.noConfusion
      | some item => exact (leaves item (List.mem_of_getLast? taken)).2 inner

theorem apply_congr {values others : List Value} (same : leavesOf values = leavesOf others)
    (f : Aggregator)
    : f.apply values = f.apply others := by
  rw [apply, apply, same]

end Aggregator

/-- The functions see only the leaves of several values: the values inside them, with lists opened
at every depth, but for nulls. Values with the same leaves, which are the regroupings of each other,
give the same. The functions `count`, `first`, `last` and `join` give the number, the ends and the
texts of the leaves; no function gives a list, and a list alone counts as its items.
-/
theorem aggregates_see_leaves (values : List Value)
    : let leaves (values : List Value) := (openedItems values).filter (!·.isNull)
      (∀ others, leaves others = leaves values ↔ Regrouped others values)
      ∧ (∀ (f : Aggregator) others,
          leaves others = leaves values → f.apply others = f.apply values)
      ∧ Aggregator.count.apply values = .number (.ofNat (leaves values).length)
      ∧ Aggregator.first.apply values = (leaves values).head?.getD .null
      ∧ Aggregator.last.apply values = (leaves values).getLast?.getD .null
      ∧ Aggregator.join.apply values
        = .text (String.intercalate ", " ((leaves values).map Value.toText))
      ∧ ∀ f : Aggregator,
          (∀ items, f.apply values ≠ .list items) ∧ f.apply [.list values] = f.apply values := by
  intro leaves
  have same (values : List Value) : leaves values = leavesOf values := (leavesOf_eq values).symm
  have alone : leavesOf [.list values] = leavesOf values := List.append_nil _
  simp only [same]
  refine ⟨fun others => Regrouped.iff_leavesOf_eq.symm, fun f others equal => ?_, rfl, rfl, rfl,
    rfl, fun f => ⟨fun items => ?_, ?_⟩⟩
  · exact Aggregator.apply_congr equal f
  · exact Aggregator.reduce_ne_list (isLeaf_of_mem_leavesOf values) f items
  · exact Aggregator.apply_congr alone f

/-- A range stays closed, wherever it stands and whatever is in it. -/
theorem aggregates_see_leaves_range
    : let range : Value := .range .null (.list [.text "b"])
      let values : List Value := [.list [.null, .text "a"], .list [], range]
      let others : List Value := [.text "a", .list [.null, .list [range]]]
      (openedItems others).filter (!·.isNull) = (openedItems values).filter (!·.isNull)
      ∧ Regrouped others values
      ∧ Aggregator.last.apply others = range
      ∧ Aggregator.join.apply others = .text "a, null - b" := by
  intro range values others
  have same : (openedItems others).filter (!·.isNull) = (openedItems values).filter (!·.isNull) :=
    rfl
  obtain ⟨regrouped, equal, -, -, last, join, -⟩ := aggregates_see_leaves values
  refine ⟨same, (regrouped others).mp same, (equal .last others same).trans last, ?_⟩
  exact (equal .join others same).trans join

end RowFormula
