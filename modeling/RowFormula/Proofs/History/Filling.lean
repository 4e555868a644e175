import RowFormula.Proofs.History.Calls
import RowFormula.Proofs.Trigger.Run
import RowFormula.Proofs.Variable.Frame

/-! What histories do to properties that are computed only when they are unset, or never:
the former are filled once and then keep their value, the latter are not written at all.
-/

namespace RowFormula

def WriteRecord.place (w : WriteRecord) : Place :=
  ⟨w.entity, w.row, w.property⟩

/-- Whether a record puts a value other than null into a place. -/
def WriteRecord.fills (place : Place) (w : WriteRecord) : Bool :=
  w.place == place && !w.slots.isEmpty

/-- Every computed property of a name in an entity has a trigger. -/
def Engine.Configures (e : Engine) (entity property : String) (trigger : CalculationTrigger)
    : Prop :=
  ∀ schema,
    e.catalog.get? entity = some schema
    → ∀ computed ∈ schema.formulaProperties,
        computed.1.name = property → computed.2.trigger = trigger

namespace RowStore

/-- A place has a value other than null. -/
def FilledAt (s : RowStore) (place : Place) : Prop :=
  ∃ v, s.valueAt place = .ok v ∧ v ≠ .null

/-- From one store to the next a place is filled at most once: a value in it is kept, and the
journal gains one record that fills the place, or none if it was filled before.
-/
structure FillsOnce (place : Place) (s t : RowStore) : Prop where
  kept : ∀ v, s.valueAt place = .ok v → v ≠ .null → t.valueAt place = .ok v
  recorded
    : ∃ new,
        t.writes = s.writes ++ new
        ∧ (s.FilledAt place → new.countP (·.fills place) = 0)
        ∧ (new.countP (·.fills place) = 0
          ∨ new.countP (·.fills place) = 1 ∧ t.FilledAt place)

/-- From one store to the next the journal gains no record about a place. -/
def Unwritten (place : Place) (s t : RowStore) : Prop :=
  ∃ new, t.writes = s.writes ++ new ∧ ∀ w ∈ new, w.place ≠ place

-----------------------------------------------------------------------------------------
-- Filling once composes
-----------------------------------------------------------------------------------------

section

variable {place : Place} {s t u : RowStore}

theorem FillsOnce.refl (place : Place) (s : RowStore) : FillsOnce place s s :=
  ⟨fun _ stored _ => stored, [], (List.append_nil _).symm, fun _ => rfl, .inl rfl⟩

theorem FillsOnce.filled (fills : FillsOnce place s t) (filled : s.FilledAt place)
    : t.FilledAt place := by
  obtain ⟨v, stored, present⟩ := filled
  exact ⟨v, fills.kept v stored present, present⟩

/-- What was filled first is not filled again. -/
theorem FillsOnce.trans (first : FillsOnce place s t) (second : FillsOnce place t u)
    : FillsOnce place s u := by
  obtain ⟨early, earlyWrites, earlyNone, earlyCount⟩ := first.recorded
  obtain ⟨late, lateWrites, lateNone, lateCount⟩ := second.recorded
  refine ⟨?_, early ++ late, ?_, ?_, ?_⟩
  · intro v stored present
    exact second.kept v (first.kept v stored present) present
  · rw [lateWrites, earlyWrites, List.append_assoc]
  · intro filled
    rw [List.countP_append, earlyNone filled, lateNone (first.filled filled)]
  · rw [List.countP_append]
    rcases earlyCount with none | ⟨one, filled⟩
    · simpa only [none, Nat.zero_add] using lateCount
    · have noMore := lateNone filled
      exact .inr ⟨by rw [one, noMore], second.filled filled⟩

theorem Unwritten.refl (place : Place) (s : RowStore) : Unwritten place s s :=
  ⟨[], (List.append_nil _).symm, fun _ member => nomatch member⟩

theorem Unwritten.trans (first : Unwritten place s t) (second : Unwritten place t u)
    : Unwritten place s u := by
  obtain ⟨early, earlyWrites, earlyElsewhere⟩ := first
  obtain ⟨late, lateWrites, lateElsewhere⟩ := second
  refine ⟨early ++ late, by rw [lateWrites, earlyWrites, List.append_assoc], ?_⟩
  intro w member
  rcases List.mem_append.mp member with before | after
  · exact earlyElsewhere w before
  · exact lateElsewhere w after

end

-----------------------------------------------------------------------------------------
-- One write
-----------------------------------------------------------------------------------------

section

variable {place : Place} {s t : RowStore} {entity row property : String} {slots : ValueSlots}
  (written : s.writeProperty entity row property slots = .ok t)

include written

/-- A write to a place that is not filled fills it once, unless it writes null. -/
theorem fillsOnce_of_write (unfilled : ¬s.FilledAt ⟨entity, row, property⟩)
    : FillsOnce ⟨entity, row, property⟩ s t := by
  refine ⟨?_, _, writes_of_write written, ?_, ?_⟩
  · intro v stored present
    exact absurd ⟨v, stored, present⟩ unfilled
  · intro filled
    exact absurd filled unfilled
  · cases empty : slots.isEmpty with
    | true => exact .inl (by simp [WriteRecord.fills, empty])
    | false =>
        refine .inr ⟨by simp [WriteRecord.fills, WriteRecord.place, empty], slots.toValue,
          valueAt_of_write written, ?_⟩
        intro null
        rw [ValueSlots.isEmpty_iff.mpr null] at empty
        exact nomatch empty

/-- A write to another place does not matter. -/
theorem fillsOnce_of_write_elsewhere (elsewhere : place ≠ ⟨entity, row, property⟩)
    : FillsOnce place s t := by
  have none : [(⟨entity, row, property, slots⟩ : WriteRecord)].countP (·.fills place) = 0 := by
    simp [WriteRecord.fills, WriteRecord.place, elsewhere.symm]
  refine ⟨?_, _, writes_of_write written, fun _ => none, .inl none⟩
  intro v stored _
  rw [← (agree_of_write written).value place elsewhere]
  exact stored

end

end RowStore

namespace Engine

-----------------------------------------------------------------------------------------
-- One step
-----------------------------------------------------------------------------------------

section

variable {e : Engine} {event : LifecycleEvent} {entity : String} {p : Pair}
  {s after : EngineState} {status : PairStatus} {place : Place}
  (step : e.PairStep event entity p s status after)

include step

/-- A pair that is to be filled when unset, and is filled, is skipped or cannot be read. -/
theorem PairStep.unwritten_of_filled (trigger : p.formula.trigger = .ifUnset)
    (filled : s.rows.FilledAt (p.place entity))
    : status.value? = none := by
  obtain ⟨v, stored, present⟩ := filled
  cases read : e.storedValue entity p s.rows with
  | error cause =>
      have failed : status = .failed _ := step.rule.unread cause trigger read
      rw [failed]
      rfl
  | ok found =>
      have same : found = v := by
        have answered := (RowAccess.guarded_eq_ok_iff.mp read).2
        exact Except.ok.inj (answered.symm.trans stored)
      have unfired : p.formula.trigger ≠ event.trigger := by
        rw [trigger]
        exact (TriggerDecision.event_ne_ifUnset event).symm
      have skipped : status = .skipped :=
        step.rule.skipped.mpr
          ⟨⟨unfired, by simp [trigger]⟩, .inr ⟨found, read, same ▸ present⟩⟩
      rw [skipped]
      rfl

theorem PairStep.unwritten_of_never (trigger : p.formula.trigger = .never)
    : status.value? = none := by
  have unfired : p.formula.trigger ≠ event.trigger := by
    rw [trigger]
    cases event <;> decide
  have skipped : status = .skipped :=
    step.rule.skipped.mpr ⟨⟨unfired, by simp [trigger]⟩, .inl (by simp [trigger])⟩
  rw [skipped]
  rfl

theorem PairStep.fillsOnce
    (configured : place = p.place entity → p.formula.trigger = .ifUnset)
    : s.rows.FillsOnce place after.rows := by
  rcases step.write with ⟨_, same⟩ | ⟨v, value, written, _⟩
  · exact same ▸ .refl place s.rows
  · by_cases own : place = p.place entity
    · subst own
      refine RowStore.fillsOnce_of_write written fun filled => ?_
      have unwritten := step.unwritten_of_filled (configured rfl) filled
      exact nomatch value.symm.trans unwritten
    · exact RowStore.fillsOnce_of_write_elsewhere written own

theorem PairStep.leavesUnwritten
    (configured : place = p.place entity → p.formula.trigger = .never)
    : s.rows.Unwritten place after.rows := by
  rcases step.write with ⟨_, same⟩ | ⟨v, value, written, _⟩
  · exact same ▸ .refl place s.rows
  · refine ⟨_, RowStore.writes_of_write written, ?_⟩
    intro w member
    obtain rfl := List.mem_singleton.mp member
    intro same
    have never := configured same.symm
    exact nomatch value.symm.trans (step.unwritten_of_never never)

end

/-- The trigger of a pair is the one that its property is configured with. -/
theorem Configures.trigger_eq {e : Engine} {place : Place} {trigger : CalculationTrigger}
    (configures : e.Configures place.entity place.property trigger)
    {entity : String} {schema : EntitySchema} {p : Pair}
    (known : e.catalog.get? entity = some schema)
    (computed : (p.property, p.formula) ∈ schema.formulaProperties)
    (own : place = p.place schema.name)
    : p.formula.trigger = trigger := by
  subst own
  have under : e.catalog.get? schema.name = some schema := by
    rw [Catalog.name_of_get? known]
    exact known
  exact configures schema under _ computed rfl

end Engine

/-- Over any calls to an engine, whatever fails meanwhile, a property that is computed only when
it is unset is filled at most once: whatever value it has after some of the calls, unless it
is null, it has after all of them, and the journal gains at most one record with a value for
it, and none if it had one at the start. For a property that is never computed the journal
gains no record.
-/
theorem history_fills_once (e : Engine) (entity row property : String) (s : EngineState)
    (calls : List EngineCall)
    : let place : Place := ⟨entity, row, property⟩
      let after := e.stateAfter calls s
      (e.Configures entity property .ifUnset
        → (∀ before later v,
            calls = before ++ later
            → (e.stateAfter before s).rows.readProperty entity row property = .ok v
            → v ≠ .null
            → after.rows.readProperty entity row property = .ok v)
          ∧ ∃ new,
              after.rows.writes = s.rows.writes ++ new
              ∧ new.countP (·.fills place) ≤ 1
              ∧ ((∃ v, s.rows.readProperty entity row property = .ok v ∧ v ≠ .null)
                → new.countP (·.fills place) = 0))
      ∧ (e.Configures entity property .never
        → ∃ new,
            after.rows.writes = s.rows.writes ++ new
            ∧ ∀ w ∈ new, ¬(w.entity = entity ∧ w.row = row ∧ w.property = property)) := by
  intro place after
  constructor
  · intro configures
    have once (calls : List EngineCall) (s : EngineState)
        : s.rows.FillsOnce place (e.stateAfter calls s).rows := by
      refine Engine.stateAfter_rows_related (.refl place) (fun _ _ _ => .trans) ?_ calls s
      intro outage event known schema p s status after found computed step
      exact step.fillsOnce (configures.trigger_eq found computed)
    refine ⟨?_, ?_⟩
    · intro before later v split stored present
      have kept := (once later (e.stateAfter before s)).kept v stored present
      rw [← Engine.stateAfter_append, ← split] at kept
      exact kept
    · obtain ⟨new, writes, none, count⟩ := (once calls s).recorded
      refine ⟨new, writes, ?_, none⟩
      rcases count with zero | ⟨one, _⟩ <;> omega
  · intro configures
    obtain ⟨new, writes, elsewhere⟩ : s.rows.Unwritten place after.rows := by
      refine Engine.stateAfter_rows_related (.refl place) (fun _ _ _ => .trans) ?_ calls s
      intro outage event known schema p s status after found computed step
      exact step.leavesUnwritten (configures.trigger_eq found computed)
    refine ⟨new, writes, ?_⟩
    rintro w member ⟨rfl, rfl, rfl⟩
    exact elsewhere w member rfl

open Engine in
/-- A property that is filled with `false`, which is not null, keeps it through a later run. -/
theorem history_fills_once_with_false
    : let filling : Formula :=
        { id := "f", resultAs := .boolean, trigger := .ifUnset,
          components := [⟨0, .operand (.literal (.bool false))⟩] }
      let schema : EntitySchema :=
        { name := "task", properties := [{ name := "done", formula := some filling }] }
      let e : Engine := { catalog := .ofSchemas [schema] }
      let s : EngineState := { rows := ({} : RowStore).insertRow "task" "r" 0 }
      let first : EngineCall := { request := .trigger .afterCreated "task" ["r", "r"] }
      let calls : List EngineCall :=
        [ first,
          { request := .calculate { formula := filling, bindings := .empty } },
          { request := .trigger .afterUpdated "task" ["r"] } ]
      e.Configures "task" "done" .ifUnset
      ∧ (e.stateAfter [first] s).rows.readProperty "task" "r" "done" = .ok (.bool false)
      ∧ (e.stateAfter calls s).rows.readProperty "task" "r" "done" = .ok (.bool false) := by
  intro filling schema e s first calls
  have configured : e.Configures "task" "done" .ifUnset := by
    intro other found computed member _
    obtain rfl : schema = other := Option.some.inj found
    obtain rfl : computed = (_, filling) := List.mem_singleton.mp member
    rfl
  have filled
      : (e.stateAfter [first] s).rows.readProperty "task" "r" "done" = .ok (.bool false) := by
    cbv
  have run := (history_fills_once e "task" "r" "done" s calls).1 configured
  exact ⟨configured, filled, run.1 [first] _ _ rfl filled (by simp)⟩

end RowFormula
