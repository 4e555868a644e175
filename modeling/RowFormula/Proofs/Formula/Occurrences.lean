import Mathlib
import RowFormula.Proofs.Formula.Ordering

/-! The order in which the variables of a formula first occur. Components are read in ascending
order whatever the order in which they are stored, and a variable that was read before is not
listed again.
-/

namespace RowFormula

/-- The items of a list, each once and in the order in which they first occur in it. -/
structure FirstOccurrences {α : Type} (items once : List α) : Prop where
  nodup : once.Nodup
  mem_iff (a : α) : a ∈ once ↔ a ∈ items
  /-- Of two of them the first one has occurred before the second one does. -/
  inOrder : once.Pairwise fun a b => ∃ before after, items = before ++ a :: after ∧ b ∉ before

/-- Where the kept parts of items go on with one of them, the items go on with an item that has
that part, and all that was kept of the earlier items is kept before it.
-/
theorem filterMap_split {α β : Type} {part? : α → Option β} {items : List α}
    {before after : List β} {b : β} (split : items.filterMap part? = before ++ b :: after)
    : ∃ early item late,
        items = early ++ item :: late
        ∧ part? item = some b
        ∧ ∀ other ∈ early, ∀ c, part? other = some c → c ∈ before := by
  obtain ⟨first, second, rfl, rfl, rest⟩ := List.filterMap_eq_append_iff.mp split
  obtain ⟨dropped, item, late, rfl, none, found, -⟩ := List.filterMap_eq_cons_iff.mp rest
  refine ⟨first ++ dropped, item, late, (List.append_assoc ..).symm, found, ?_⟩
  intro other listed c part
  rcases List.mem_append.mp listed with inFirst | inDropped
  · exact List.mem_filterMap.mpr ⟨other, inFirst, part⟩
  · simp [none other inDropped] at part

/-- Erasing duplicates keeps the first of each, by induction on the items that are left when the
first one is dropped everywhere.
-/
theorem firstOccurrences_eraseDups {α : Type} [BEq α] [LawfulBEq α] (items : List α)
    : FirstOccurrences items items.eraseDups := by
  match items with
  | [] => exact ⟨.nil, fun _ => .rfl, .nil⟩
  | a :: rest =>
      have shorter : (rest.filter fun b => !b == a).length < (a :: rest).length :=
        Nat.lt_succ_of_le (List.length_filter_le _ _)
      have others := firstOccurrences_eraseDups (rest.filter fun b => !b == a)
      have apart {b : α} (listed : b ∈ (rest.filter fun b => !b == a).eraseDups)
          : (!b == a) = true :=
        (List.mem_filter.mp ((others.mem_iff b).mp listed)).2
      rw [List.eraseDups_cons]
      constructor
      · apply List.nodup_cons.mpr
        refine ⟨fun listed => ?_, others.nodup⟩
        simpa using apart listed
      · intro b
        rw [List.mem_cons, List.mem_cons, List.mem_eraseDups, List.mem_filter]
        by_cases same : b = a <;> simp [same]
      · apply List.pairwise_cons.mpr
        refine ⟨fun b _ => ⟨[], rest, rfl, List.not_mem_nil⟩, ?_⟩
        refine others.inOrder.imp_of_mem fun {b c} _ later => ?_
        rintro ⟨before, after, split, absent⟩
        rw [← List.filterMap_eq_filter] at split
        obtain ⟨early, item, late, rfl, found, kept⟩ := filterMap_split split
        obtain ⟨rfl, -⟩ := Option.guard_eq_some_iff.mp found
        refine ⟨a :: early, late, rfl, ?_⟩
        rw [List.mem_cons, not_or]
        refine ⟨by simpa using apart later, fun listed => absent (kept c listed c ?_)⟩
        exact Option.guard_eq_some_iff.mpr ⟨rfl, apart later⟩
termination_by items.length
decreasing_by exact shorter

-----------------------------------------------------------------------------------------
-- Components in reading order, with the places where they are stored
-----------------------------------------------------------------------------------------

def storedInOrder (components : List Component) : List (Component × Nat) :=
  components.zipIdx.mergeSort (List.zipIdxLE fun a b => a.order ≤ b.order)

theorem map_storedInOrder (components : List Component)
    : (storedInOrder components).map (·.1) = inOrder components :=
  List.mergeSort_zipIdx

theorem mem_storedInOrder_iff {components : List Component} {c : Component} {i : Nat}
    : (c, i) ∈ storedInOrder components ↔ components[i]? = some c := by
  rw [storedInOrder, List.mem_mergeSort, List.mk_mem_zipIdx_iff_getElem?]

/-- Of two components the one with the lesser order is read first, and of those with equal orders
the one that is stored first.
-/
theorem storedInOrder_ascending (components : List Component)
    : (storedInOrder components).Pairwise fun a b =>
        a.1.order < b.1.order ∨ a.1.order = b.1.order ∧ a.2 ≤ b.2 := by
  have sorted := List.pairwise_mergeSort (List.zipIdxLE_trans order_le_trans)
    (List.zipIdxLE_total order_le_total) components.zipIdx
  refine sorted.imp fun {a b} below => ?_
  simp only [List.zipIdxLE, decide_eq_true_eq] at below
  by_cases back : b.1.order ≤ a.1.order
  · rw [if_pos back] at below
    by_cases forth : a.1.order ≤ b.1.order
    · rw [if_pos forth] at below
      exact .inr ⟨UInt32.le_antisymm forth back, by simpa using below⟩
    · simp [forth] at below
  · exact .inl (UInt32.not_le.mp back)

-----------------------------------------------------------------------------------------
-- The paths of a formula
-----------------------------------------------------------------------------------------

namespace Formula

/-- One path occurs before another: a variable with that path has an order that is less than that
of every variable with the other path, or an equal one and is stored first.
-/
def OccursBefore (f : Formula) (x y : String) : Prop :=
  ∃ (i : Nat) (c : Component),
    f.components[i]? = some c
    ∧ c.path? = some x
    ∧ ∀ (j : Nat) (d : Component),
        f.components[j]? = some d
        → d.path? = some y
        → c.order < d.order ∨ c.order = d.order ∧ i < j

/-- The paths of a formula are those of its variables. -/
theorem mem_variablePaths_iff {f : Formula} {path : String}
    : path ∈ f.variablePaths ↔ ∃ c ∈ f.components, c.path? = some path := by
  simp only [variablePaths, List.mem_eraseDups, List.mem_filterMap, inOrder, List.mem_mergeSort]

theorem nodup_variablePaths (f : Formula) : f.variablePaths.Nodup :=
  (firstOccurrences_eraseDups _).nodup

/-- The paths of a formula are listed in the order in which they first occur. -/
theorem variablePaths_inOrder (f : Formula) : f.variablePaths.Pairwise f.OccursBefore := by
  have once := firstOccurrences_eraseDups ((inOrder f.components).filterMap Component.path?)
  refine (once.nodup.and once.inOrder).imp fun {x y} => ?_
  rintro ⟨differ, before, after, split, absent⟩
  rw [← map_storedInOrder, List.filterMap_map] at split
  obtain ⟨early, ⟨c, i⟩, late, listed, found, kept⟩ := filterMap_split split
  have ascending := storedInOrder_ascending f.components
  rw [listed] at ascending
  obtain ⟨-, later, -⟩ := List.pairwise_append.mp ascending
  refine ⟨i, c, mem_storedInOrder_iff.mp (by simp [listed]), found, ?_⟩
  intro j d place path
  have member := mem_storedInOrder_iff.mpr place
  rw [listed] at member
  have distinct : (c, i) ≠ (d, j) := by
    rintro same
    obtain ⟨rfl, -⟩ := Prod.mk.inj same
    exact differ (Option.some.inj (found.symm.trans path))
  rcases List.mem_append.mp member with inEarly | inLate
  · exact absurd (kept (d, j) inEarly y path) absent
  · have behind := List.mem_of_ne_of_mem distinct.symm inLate
    rcases (List.pairwise_cons.mp later).1 (d, j) behind with less | ⟨equal, atMost⟩
    · exact .inl less
    · refine .inr ⟨equal, Nat.lt_of_le_of_ne atMost ?_⟩
      rintro rfl
      have same : some c = some d := (mem_storedInOrder_iff.mp (by simp [listed])).symm.trans place
      exact distinct (by rw [Option.some.inj same])

end Formula

end RowFormula
