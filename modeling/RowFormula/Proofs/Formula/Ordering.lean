import Mathlib
import RowFormula.Formula.Node

/-! The order in which components are read, and orders that several of them have. Sorting
brings equal orders together, so that comparing neighbours finds the least of them.
-/

namespace RowFormula

/-- At least two of the components have an order. -/
def SharesOrder (cs : List Component) (order : UInt32) : Prop :=
  2 ≤ (cs.map (·.order)).count order

/-- Reading in ascending order neither loses nor repeats a component. -/
theorem inOrder_perm (cs : List Component) : (inOrder cs).Perm cs :=
  List.mergeSort_perm cs _

theorem order_le_trans (a b c : Component) (first : decide (a.order ≤ b.order))
    (second : decide (b.order ≤ c.order))
    : decide (a.order ≤ c.order) := by
  simp only [decide_eq_true_eq] at *
  exact UInt32.le_trans first second

theorem order_le_total (a b : Component)
    : (decide (a.order ≤ b.order) || decide (b.order ≤ a.order)) = true := by
  simpa using UInt32.le_total a.order b.order

theorem inOrder_ascending (cs : List Component)
    : (inOrder cs).Pairwise (·.order ≤ ·.order) := by
  have sorted := List.pairwise_mergeSort order_le_trans order_le_total cs
  exact sorted.imp fun below => by simpa using below

/-- Components whose orders ascend are read as they stand. -/
theorem inOrder_of_ascending {cs : List Component}
    (ascending : cs.Pairwise (·.order < ·.order))
    : inOrder cs = cs := by
  refine List.mergeSort_of_pairwise (ascending.imp fun less => ?_)
  simpa using UInt32.le_of_lt less

-----------------------------------------------------------------------------------------
-- Shared orders
-----------------------------------------------------------------------------------------

theorem sharesOrder_cons_iff {c : Component} {rest : List Component} {order : UInt32}
    : SharesOrder (c :: rest) order
      ↔ SharesOrder rest order ∨ c.order = order ∧ ∃ other ∈ rest, other.order = order := by
  have present : (∃ other ∈ rest, other.order = order)
      ↔ 0 < (rest.map (·.order)).count order := by
    rw [List.count_pos_iff, List.mem_map]
  rw [present, SharesOrder, SharesOrder, List.map_cons, List.count_cons]
  by_cases same : c.order = order
  · simp only [same, beq_self_eq_true, if_true, true_and]
    omega
  · simp [same]

theorem SharesOrder.exists_mem {cs : List Component} {order : UInt32}
    (shared : SharesOrder cs order)
    : ∃ c ∈ cs, c.order = order := by
  have present : 0 < (cs.map (·.order)).count order := Nat.lt_of_lt_of_le Nat.zero_lt_two shared
  simpa [List.count_pos_iff] using present

theorem sharesOrder_perm {cs ds : List Component} (perm : cs.Perm ds) (order : UInt32)
    : SharesOrder cs order ↔ SharesOrder ds order := by
  rw [SharesOrder, SharesOrder, (perm.map _).count_eq]

/-- No order is shared exactly when none is listed twice. -/
theorem nodup_order_iff {cs : List Component}
    : (cs.map (·.order)).Nodup ↔ ∀ order, ¬SharesOrder cs order := by
  rw [List.nodup_iff_count]
  refine forall_congr' fun order => ?_
  rw [SharesOrder, Nat.not_le, Nat.lt_succ_iff]

theorem not_sharesOrder_of_ascending {cs : List Component}
    (ascending : cs.Pairwise (·.order < ·.order)) (order : UInt32)
    : ¬SharesOrder cs order := by
  have once : (cs.map (·.order)).Nodup :=
    List.pairwise_map.mpr (ascending.imp fun less => UInt32.ne_of_lt less)
  exact nodup_order_iff.mp once order

namespace Node

/-- Among ascending components without equal neighbours each order is less than those after
it.
-/
theorem ascending_of_sharedOrder? {cs : List Component}
    (ascending : cs.Pairwise (·.order ≤ ·.order)) (apart : sharedOrder? cs = none)
    : cs.Pairwise (·.order < ·.order) := by
  induction cs with
  | nil => exact .nil
  | cons first rest ih =>
      cases rest with
      | nil => exact List.pairwise_singleton _ _
      | cons second rest =>
          simp only [sharedOrder?] at apart
          split at apart
          · simp at apart
          · next differ =>
              obtain ⟨above, later⟩ := List.pairwise_cons.mp ascending
              have strict := ih later apart
              have next : first.order < second.order :=
                UInt32.lt_of_le_of_ne (above second List.mem_cons_self) differ
              refine List.pairwise_cons.mpr ⟨?_, strict⟩
              intro other member
              rcases List.mem_cons.mp member with rfl | behind
              · exact next
              · exact UInt32.lt_trans next ((List.pairwise_cons.mp strict).1 other behind)

/-- Among ascending components the first neighbours with equal orders have the least order
that is shared, by induction on the components.
-/
theorem least_of_sharedOrder? {cs : List Component} {order : UInt32}
    (ascending : cs.Pairwise (·.order ≤ ·.order)) (found : sharedOrder? cs = some order)
    : SharesOrder cs order ∧ ∀ other, SharesOrder cs other → order ≤ other := by
  induction cs with
  | nil => simp [sharedOrder?] at found
  | cons first rest ih =>
      cases rest with
      | nil => simp [sharedOrder?] at found
      | cons second rest =>
          obtain ⟨above, later⟩ := List.pairwise_cons.mp ascending
          simp only [sharedOrder?] at found
          split at found
          · next equal =>
              obtain rfl := Option.some.inj found
              refine ⟨sharesOrder_cons_iff.mpr (.inr ⟨rfl, second, by simp, equal.symm⟩), ?_⟩
              intro other shared
              obtain ⟨c, member, rfl⟩ := shared.exists_mem
              rcases List.mem_cons.mp member with rfl | behind
              · exact UInt32.le_refl _
              · exact above c behind
          · next differ =>
              obtain ⟨shared, least⟩ := ih later found
              refine ⟨sharesOrder_cons_iff.mpr (.inl shared), ?_⟩
              intro other sharedToo
              rcases sharesOrder_cons_iff.mp sharedToo with behind | ⟨rfl, c, member, same⟩
              · exact least other behind
              · -- The order of the first component comes back behind a neighbour above it.
                have next : first.order < second.order :=
                  UInt32.lt_of_le_of_ne (above second List.mem_cons_self) differ
                have back : second.order ≤ c.order := by
                  rcases List.mem_cons.mp member with rfl | behind
                  · exact UInt32.le_refl _
                  · exact (List.pairwise_cons.mp later).1 c behind
                exact absurd (same ▸ UInt32.lt_of_lt_of_le next back) (UInt32.lt_irrefl _)

/-- Components that share an order are not matched; the least such order is reported. -/
theorem ofComponents_shared {cs : List Component} {order : UInt32}
    (shared : SharesOrder cs order)
    : ∃ least,
        ofComponents cs = .error (.duplicateOrder least)
        ∧ SharesOrder cs least
        ∧ ∀ other, SharesOrder cs other → least ≤ other := by
  have ascending := inOrder_ascending cs
  have present : cs.isEmpty = false := by
    obtain ⟨c, member, -⟩ := shared.exists_mem
    exact List.isEmpty_eq_false_iff.mpr (List.ne_nil_of_mem member)
  cases found : sharedOrder? (inOrder cs) with
  | none =>
      have apart := not_sharesOrder_of_ascending (ascending_of_sharedOrder? ascending found)
      exact absurd ((sharesOrder_perm (inOrder_perm cs) order).mpr shared) (apart order)
  | some least =>
      obtain ⟨sharedToo, below⟩ := least_of_sharedOrder? ascending found
      refine ⟨least, by simp [ofComponents, present, found],
        (sharesOrder_perm (inOrder_perm cs) least).mp sharedToo, ?_⟩
      intro other otherShared
      exact below other ((sharesOrder_perm (inOrder_perm cs) other).mpr otherShared)

/-- Components of which no two share an order are matched in ascending order. -/
theorem ofComponents_distinct {cs : List Component} (present : cs ≠ [])
    (distinct : ∀ order, ¬SharesOrder cs order)
    : ofComponents cs = close [] [] (inOrder cs)
      ∧ (inOrder cs).Pairwise (·.order < ·.order) := by
  have ascending := inOrder_ascending cs
  have apart : sharedOrder? (inOrder cs) = none := by
    cases found : sharedOrder? (inOrder cs) with
    | none => rfl
    | some order =>
        have shared := (least_of_sharedOrder? ascending found).1
        exact absurd ((sharesOrder_perm (inOrder_perm cs) order).mp shared) (distinct order)
  have nonempty : cs.isEmpty = false := List.isEmpty_eq_false_iff.mpr present
  exact ⟨by simp [ofComponents, nonempty, apart], ascending_of_sharedOrder? ascending apart⟩

/-- Components of which no two share an order are read with orders that ascend. -/
theorem inOrder_strict {cs : List Component} (distinct : ∀ order, ¬SharesOrder cs order)
    : (inOrder cs).Pairwise (·.order < ·.order) := by
  by_cases absent : cs = []
  · subst absent
    simp [inOrder]
  · exact (ofComponents_distinct absent distinct).2

/-- Components that have a tree have different orders. -/
theorem ascending_of_ofComponents {cs : List Component} {nodes : List Node}
    (parsed : ofComponents cs = .ok nodes)
    : (inOrder cs).Pairwise (·.order < ·.order) := by
  have present : cs ≠ [] := by
    rintro rfl
    simp [ofComponents] at parsed
  have distinct : ∀ order, ¬SharesOrder cs order := by
    intro order shared
    obtain ⟨least, reported, -⟩ := ofComponents_shared shared
    simp [reported] at parsed
  exact (ofComponents_distinct present distinct).2

end Node

end RowFormula
