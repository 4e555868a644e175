import Mathlib
import RowFormula.Proofs.Log.Recording
import RowFormula.Proofs.Rows.Keys
import RowFormula.Proofs.Rows.Writes
import RowFormula.Proofs.Variable.Reading

/-! The recorded row ids cover what a result depends on: whoever changes only rows with other
ids changes no result. Every row is recorded that a successful reading has looked at, so that
it is the same in every store that agrees on the recorded rows.
-/

namespace RowFormula

namespace Reading

variable {α β : Type} {recorded : List String}

/-- A reading is kept by another if what it finds while reading recorded rows alone is found
by the other, with the same rows read.
-/
def Kept (recorded : List String) (r other : Reading α) : Prop :=
  ∀ a ids, r = ⟨.ok a, ids⟩ → ids ⊆ recorded → other = ⟨.ok a, ids⟩

theorem Kept.refl (r : Reading α) : Kept recorded r r :=
  fun _ _ read _ => read

/-- Readings in two parts are kept if both parts are. That the first is kept may follow from
what the second has read.
-/
theorem Kept.bind {r other : Reading α} {next after : α → Reading β}
    (first
      : ∀ a ids b later,
          r = ⟨.ok a, ids⟩ → next a = ⟨.ok b, later⟩ → ids ⊆ recorded → later ⊆ recorded
          → other = ⟨.ok a, ids⟩)
    (second
      : ∀ a ids, r = ⟨.ok a, ids⟩ → ids ⊆ recorded → Kept recorded (next a) (after a))
    : Kept recorded (r >>= next) (other >>= after) := by
  intro b ids read inside
  obtain ⟨a, early, later, firstRead, secondRead, rfl⟩ := bind_eq_ok_iff.mp read
  obtain ⟨earlyInside, laterInside⟩ := List.append_subset.mp inside
  have otherRead := first a early b later firstRead secondRead earlyInside laterInside
  have afterRead := second a early firstRead earlyInside b later secondRead laterInside
  exact bind_eq_ok_iff.mpr ⟨a, early, later, otherRead, afterRead, rfl⟩

theorem Kept.andThen {r other : Reading α} {next after : α → Reading β}
    (first : Kept recorded r other)
    (second
      : ∀ a ids, r = ⟨.ok a, ids⟩ → ids ⊆ recorded → Kept recorded (next a) (after a))
    : Kept recorded (r >>= next) (other >>= after) :=
  .bind (fun a ids _ _ read _ inside _ => first a ids read inside) second

theorem Kept.map {r other : Reading α} (kept : Kept recorded r other) (f : α → β)
    : Kept recorded (f <$> r) (f <$> other) :=
  kept.andThen fun _ _ _ _ => .refl _

/-- Reading for each item is kept if every part is, by induction on the items. -/
theorem Kept.forEach {read other : α → Reading β} {items : List α}
    (kept : ∀ item ∈ items, Kept recorded (read item) (other item))
    : Kept recorded (forEach read items) (forEach other items) := by
  induction items with
  | nil => exact .refl _
  | cons item rest ih =>
      have head := kept item List.mem_cons_self
      have tail := ih fun later member => kept later (List.mem_cons_of_mem item member)
      exact head.andThen fun first _ _ _ => tail.map (first :: ·)

end Reading

namespace Engine

variable {e : Engine} {f : Formula} {recorded : List String} {s t : RowStore}
  (agree : s.AgreeOn recorded t)

include agree

theorem rawValue_recorded {row : Row} (listed : row.id ∈ recorded) (schema : EntitySchema)
    (property : String)
    : (e.resolver f s).rawValue schema row property
      = (e.resolver f t).rawValue schema row property := by
  have same := agree.value schema.name row.id listed property
  simp only [VariableResolver.rawValue, RowAccess.readProperty, resolver, same]
  rfl

theorem row_recorded {entity item : String} {row : Row} (listed : row.id ∈ recorded)
    (found : (e.resolver f s).rows.row entity item = .ok row)
    : (e.resolver f t).rows.row entity item = .ok row := by
  obtain ⟨working, stored⟩ := RowAccess.guarded_eq_ok_iff.mp found
  have same : row.id = item := congrArg Prod.snd (RowStore.key_of_row stored)
  exact RowAccess.guarded_eq_ok_iff.mpr ⟨working, agree.row_eq_ok (same ▸ listed) stored⟩

theorem relatedRows_recorded {entity item relationship : String} {rows : List Row}
    (listed : ∀ row ∈ rows, row.id ∈ recorded)
    (found : (e.resolver f s).rows.relatedRows entity item relationship = .ok rows)
    : (e.resolver f t).rows.relatedRows entity item relationship = .ok rows := by
  obtain ⟨working, stored⟩ := RowAccess.guarded_eq_ok_iff.mp found
  exact RowAccess.guarded_eq_ok_iff.mpr ⟨working, agree.relatedRows_eq_ok stored listed⟩

/-- What a relationship leads to is looked up before any of it is recorded, and recorded as
its values are read.
-/
theorem related_kept {path entity item relationship property : String}
    {target : EntitySchema} {function : Option String}
    : Reading.Kept recorded
        (Reading.ofStore ((e.resolver f s).rows.relatedRows entity item relationship)
          >>= (e.resolver f s).relatedValue path target property function)
        (Reading.ofStore ((e.resolver f t).rows.relatedRows entity item relationship)
          >>= (e.resolver f t).relatedValue path target property function) := by
  have listed {rows : List Row} {v : Value} {ids : List String}
      (read
        : (e.resolver f s).relatedValue path target property function rows = ⟨.ok v, ids⟩)
      (inside : ids ⊆ recorded)
      : ∀ row ∈ rows, row.id ∈ recorded := by
    intro row member
    rw [VariableResolver.rowIds_of_relatedValue read] at inside
    exact inside (List.mem_map_of_mem member)
  refine .bind ?_ ?_
  · intro rows ids v later found read _ inside
    obtain ⟨stored, rfl⟩ := Reading.ofStore_eq_ok_iff.mp found
    have storedToo := relatedRows_recorded agree (listed read inside) stored
    exact Reading.ofStore_eq_ok_iff.mpr ⟨storedToo, rfl⟩
  · intro rows _ _ _ v ids read inside
    rw [← relatedValue_congr fun row member =>
      rawValue_recorded agree (listed read inside row member) target property]
    exact read

/-- What a path reads from a row is kept: the row is recorded right after it was looked up,
and so are the rows that a relationship leads to.
-/
theorem resolveOnRow_kept {path entity item target property : String}
    {function : Option String}
    : Reading.Kept recorded
        ((e.resolver f s).resolveOnRow path entity item target property function)
        ((e.resolver f t).resolveOnRow path entity item target property function) := by
  simp only [VariableResolver.resolveOnRow]
  refine (Reading.Kept.refl _).andThen fun schema _ _ _ => ?_
  refine .bind ?_ fun row _ _ _ => (Reading.Kept.refl _).andThen fun _ ids visited inside => ?_
  · intro row ids v later found read _ inside
    obtain ⟨stored, rfl⟩ := Reading.ofStore_eq_ok_iff.mp found
    obtain ⟨_, visit, _, visited, -, rfl⟩ := Reading.bind_eq_ok_iff.mp read
    obtain rfl := Reading.visit_eq_ok_iff.mp visited
    have storedToo := row_recorded agree (inside (by simp)) stored
    exact Reading.ofStore_eq_ok_iff.mpr ⟨storedToo, rfl⟩
  · obtain rfl := Reading.visit_eq_ok_iff.mp visited
    have listed : row.id ∈ recorded := inside (by simp)
    -- From the recorded row on, the stores differ at most in what a relationship leads to.
    split
    · rw [ownValue_congr (rawValue_recorded agree listed schema property)]
      exact .refl _
    · split
      · exact .refl _
      · refine (Reading.Kept.refl _).andThen fun related _ _ _ => ?_
        split
        · exact .refl _
        · exact related_kept agree

theorem resolve_kept (path : String) (bindings : VariableBindings)
    : Reading.Kept recorded ((e.resolver f s).resolve path bindings)
        ((e.resolver f t).resolve path bindings) := by
  simp only [VariableResolver.resolve_eq]
  split
  · exact .refl _
  · split
    · exact .refl _
    · exact .refl _
    · split
      · exact (resolveOnRow_kept agree).map some
      · exact (resolveOnRow_kept agree).map some
      · exact .refl _

theorem resolvePaths_kept (paths : List String) (bindings : VariableBindings)
    : Reading.Kept recorded ((e.resolver f s).resolvePaths paths bindings)
        ((e.resolver f t).resolvePaths paths bindings) := by
  simp only [VariableResolver.resolvePaths_eq]
  have each (path : String)
      : Reading.Kept recorded
          ((fun v => v.map (path, ·)) <$> (e.resolver f s).resolve path bindings)
          ((fun v => v.map (path, ·)) <$> (e.resolver f t).resolve path bindings) :=
    (resolve_kept agree path bindings).map _
  have all := Reading.Kept.forEach fun path (_ : path ∈ paths) => each path
  exact all.map _

end Engine

open Engine in
/-- The recorded row ids cover what a result depends on. If the variables of a formula are
resolved against one store, then every store with the same relations that agrees with it on
the rows with the recorded ids resolves them to the same values, with the same ids recorded,
and gives the same calculation.
-/
theorem resolveAll_depends_on_recorded (e : Engine) (request : CalculationRequest)
    (s t : RowStore) (found : VariableResolver.ResolvedValues) (log : ExecutionLog)
    (resolved
      : (e.resolver request.formula s).resolveAll request.formula request.bindings
        = .ok found)
    (agree : s.AgreeOn found.rowIds t)
    : (e.resolver request.formula t).resolveAll request.formula request.bindings = .ok found
      ∧ e.calculate request ⟨t, log⟩ = e.calculate request ⟨s, log⟩ := by
  simp only [VariableResolver.resolveAll, Reading.resolved] at resolved
  obtain ⟨values, succeeded, rfl⟩ := Except.map_eq_ok_iff.mp resolved
  generalize asked
    : (e.resolver request.formula s).resolvePaths request.formula.variablePaths
        request.bindings = reading at succeeded agree
  obtain ⟨outcome, rowIds⟩ := reading
  obtain rfl : outcome = .ok values := succeeded
  have inside : rowIds ⊆ rowIds.eraseDups := fun _ listed => List.mem_eraseDups.mpr listed
  have alike := resolvePaths_kept agree _ _ _ _ asked inside
  have same : e.resolved request t = e.resolved request s := by
    simp only [Engine.resolved, VariableResolver.resolveAll, Reading.resolved, alike, asked]
  refine ⟨?_, calculate_congr same log⟩
  simp only [VariableResolver.resolveAll, Reading.resolved, alike]
  rfl

open Engine in
/-- The positions of a task and of its project depend on no other project, which may be moved.
-/
theorem resolveAll_independent_of_other_project
    : let e : Engine :=
        { catalog := .ofSchemas [
            { name := "task", relationships := [⟨"in", "project", .parent⟩] },
            { name := "project" }] }
      let f : Formula :=
        { id := "f", components := [
            ⟨0, .operand (.var "row.task.order")⟩,
            ⟨1, .operator .add⟩,
            ⟨2, .operand (.var "row.project.order")⟩] }
      let request : CalculationRequest := { formula := f, bindings := .ofRow "task" "t" }
      let s : RowStore :=
        (((({} : RowStore).insertRow "task" "t" 3).insertRow "project" "p" 4).insertRow
          "project" "other" 5).relate "task" "t" "in" ("project", "p")
      let t : RowStore := s.insertRow "project" "other" 6
      let found : VariableResolver.ResolvedValues :=
        { values := .ofList [("row.task.order", .number 3), ("row.project.order", .number 4)]
          rowIds := ["t", "p"] }
      (e.resolver f s).resolveAll f request.bindings = .ok found
      ∧ s.AgreeOn found.rowIds t
      ∧ (e.resolver f t).resolveAll f request.bindings = .ok found
      ∧ e.calculate request ⟨t, {}⟩ = e.calculate request ⟨s, {}⟩ := by
  intro e f request s t found
  have resolved : (e.resolver f s).resolveAll f request.bindings = .ok found := by
    have paths : f.variablePaths = ["row.task.order", "row.project.order"] := by cbv
    have own : (e.resolver f s).resolve "row.task.order" request.bindings
        = ⟨.ok (some (.number 3)), ["t"]⟩ := by
      have segments : (pathSegments "row.task.order".toList).map String.ofList
          = "row" :: "task" :: "order" :: (none : Option String).toList := by decide
      rw [VariableResolver.resolve_of_row segments (by decide) (Table.get?_insert ..)]
      cbv
    have other : (e.resolver f s).resolve "row.project.order" request.bindings
        = ⟨.ok (some (.number 4)), ["t", "p"]⟩ := by
      have segments : (pathSegments "row.project.order".toList).map String.ofList
          = "row" :: "project" :: "order" :: (none : Option String).toList := by decide
      rw [VariableResolver.resolve_of_row segments (by decide) (Table.get?_insert ..)]
      cbv
    simp only [VariableResolver.resolveAll_eq, paths,
      Reading.forEach, own, other]
    cbv
  have agree : s.AgreeOn found.rowIds t := s.agreeOn_insertRow _ _ (by decide)
  exact ⟨resolved, agree, resolveAll_depends_on_recorded e request s t found {} resolved agree⟩

end RowFormula
