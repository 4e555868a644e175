import RowFormula.Proofs.Trigger.Independence

/-! Firing the same event again changes nothing. A pair that was processed finds its own result
in its place and ends as before, or leaves a result with which it was filled; the results of the
other pairs it does not read. Rows may be listed repeatedly, so a pair may meet its own result
within the first run already.
-/

namespace RowFormula

/-- The status of a pair for which the event fires again: a property that was filled because it
was unset is left, and every other pair ends as before.
-/
def PairStatus.repeated : PairStatus → PairStatus
  | .written v .ifUnset => if v.isNull then .written v .ifUnset else .skipped
  | status => status

def PairOutcome.repeated (outcome : PairOutcome) : PairOutcome :=
  { outcome with status := outcome.status.repeated }

namespace Engine

/-- Pairs of an entity of which no two write to the same place, unless they are the same pair,
and none of whose formulas reads what another pair, or itself, writes.
-/
structure Repeatable (entity : String) (ps : List Pair) : Prop where
  same : ∀ p ∈ ps, ∀ q ∈ ps, p.place entity = q.place entity → p = q
  unread : ∀ p ∈ ps, ∀ q ∈ ps, ¬p.formula.ReadsOwn entity q.property.name

/-- In the store a pair has a status, and what it then writes is in its place already. -/
structure Settled (e : Engine) (event : LifecycleEvent) (entity : String) (p : Pair)
    (status : PairStatus) (rows : RowStore)
    : Prop where
  ends : e.statusOf event entity p rows = status
  holds : ∀ v, status.value? = some v → rows.valueAt (p.place entity) = .ok v

/-- The pairs of properties with different names are repeatable if no formula reads a computed
property of its own entity.
-/
theorem repeatable_pairs {schema : EntitySchema} {rows : List String}
    (names : (schema.formulaProperties.map (·.1.name)).Nodup)
    (unread : ∀ computed ∈ schema.formulaProperties, ∀ other ∈ schema.formulaProperties,
      ¬computed.2.ReadsOwn schema.name other.1.name)
    : Repeatable schema.name (pairs schema rows) := by
  constructor
  · intro p pMember q qMember same
    obtain ⟨computed, computedMember, pOf⟩ := List.mem_flatMap.mp pMember
    obtain ⟨other, otherMember, qOf⟩ := List.mem_flatMap.mp qMember
    obtain ⟨row, _, rfl⟩ := List.mem_map.mp pOf
    obtain ⟨_, _, rfl⟩ := List.mem_map.mp qOf
    obtain ⟨-, rfl, sameName⟩ := Place.mk.inj same
    obtain rfl : computed = other :=
      List.inj_on_of_nodup_map names computedMember otherMember sameName
    rfl
  · intro p pMember q qMember
    obtain ⟨computed, computedMember, pOf⟩ := List.mem_flatMap.mp pMember
    obtain ⟨other, otherMember, qOf⟩ := List.mem_flatMap.mp qMember
    obtain ⟨_, _, rfl⟩ := List.mem_map.mp pOf
    obtain ⟨_, _, rfl⟩ := List.mem_map.mp qOf
    exact unread computed computedMember other otherMember

-----------------------------------------------------------------------------------------
-- A pair that finds its own result
-----------------------------------------------------------------------------------------

section

variable {e : Engine} {event : LifecycleEvent} {entity : String} {p : Pair}
  {s after : EngineState} {status : PairStatus}

theorem repeated_of_value?_eq_none (unwritten : status.value? = none)
    : status.repeated = status := by
  cases status with
  | written v triggeredBy => simp [PairStatus.value?] at unwritten
  | skipped | failed => rfl

theorem repeated_of_filled {v : Value} (present : v ≠ .null)
    : (PairStatus.written v .ifUnset).repeated = .skipped := by
  cases v with
  | null => exact absurd rfl present
  | _ => rfl

theorem repeated_of_unfilled {v : Value} {triggeredBy : CalculationTrigger}
    (unfilled : triggeredBy = .ifUnset → v = .null)
    : (PairStatus.written v triggeredBy).repeated = .written v triggeredBy := by
  cases triggeredBy with
  | ifUnset => rw [unfilled rfl]; rfl
  | _ => rfl

/-- A stored value that could be read once can be read in every store. -/
theorem storedValue_eq_valueAt {rows others : RowStore} {v : Value}
    (read : e.storedValue entity p rows = .ok v)
    : e.storedValue entity p others = others.valueAt (p.place entity) := by
  have working : e.outage (.readProperty entity p.row p.property.name) = .none :=
    (RowAccess.guarded_eq_ok_iff.mp read).1
  simp only [storedValue, RowAccess.readProperty, RowAccess.guarded, working]
  rfl

variable {triggeredBy : CalculationTrigger} {rows others : RowStore} {v : Value}
  (decided : e.decision event entity p rows = .ok (.calculate triggeredBy))
  (stored : others.valueAt (p.place entity) = .ok v)

include decided stored

/-- A property that was filled because it was unset is skipped where it has a value. -/
theorem decision_filled (fills : triggeredBy = .ifUnset) (present : v ≠ .null)
    : e.decision event entity p others = .ok .skip := by
  obtain ⟨rfl, grounds⟩ := TriggerDecision.decide_eq_calculate_iff.mp decided
  have unfired : p.formula.trigger ≠ event.trigger := by
    rw [fills]
    exact (TriggerDecision.event_ne_ifUnset event).symm
  have notAlways : p.formula.trigger ≠ .always := by simp [fills]
  have read : e.storedValue entity p rows = .ok .null := by
    rcases grounds with (fires | always) | unset
    · exact absurd fires unfired
    · exact absurd always notAlways
    · exact unset.2
  apply TriggerDecision.decide_eq_skip_iff.mpr
  refine ⟨⟨unfired, notAlways⟩, .inr ⟨v, ?_, present⟩⟩
  rw [storedValue_eq_valueAt read]
  exact stored

/-- Otherwise a pair is recomputed again, on the same grounds. -/
theorem decision_unfilled (unfilled : triggeredBy = .ifUnset → v = .null)
    : e.decision event entity p others = .ok (.calculate triggeredBy) := by
  obtain ⟨rfl, grounds⟩ := TriggerDecision.decide_eq_calculate_iff.mp decided
  apply TriggerDecision.decide_eq_calculate_iff.mpr
  refine ⟨rfl, ?_⟩
  rcases grounds with fires | ⟨fills, read⟩
  · exact .inl fires
  · refine .inr ⟨fills, ?_⟩
    rw [storedValue_eq_valueAt read, stored, unfilled fills]

end

-----------------------------------------------------------------------------------------
-- Settled pairs
-----------------------------------------------------------------------------------------

section

variable {e : Engine} {event : LifecycleEvent} {entity : String} {p q : Pair}
  {s after : EngineState} {status : PairStatus}

/-- A pair that is settled changes nothing when it is processed. -/
theorem PairStep.agree_of_settled {expected : PairStatus}
    (step : e.PairStep event entity p s status after)
    (settled : e.Settled event entity p expected s.rows)
    : s.rows.AgreeExcept (fun _ => False) after.rows := by
  have alike : status = expected := step.status_eq.trans settled.ends
  refine ⟨step.agree.row, step.agree.relations, fun place _ => ?_⟩
  by_cases own : place = p.place entity
  · subst own
    rw [step.valueAt]
    cases value : status.value? with
    | none => rfl
    | some v => exact settled.holds v (alike ▸ value)
  · exact step.agree.value place own

/-- A pair stays settled while others write what it does not read. -/
theorem Settled.frame {places : Place → Prop} {rows others : RowStore}
    (settled : e.Settled event entity q status rows) (agree : rows.AgreeExcept places others)
    (own : ¬places (q.place entity)) (confined : ∀ place, places place → place.entity = entity)
    (unread : ∀ place, places place → ¬q.formula.ReadsOwn entity place.property)
    : e.Settled event entity q status others := by
  constructor
  · rw [← settled.ends]
    exact (statusOf_frame agree own confined unread).symm
  · intro v value
    rw [← agree.value _ own]
    exact settled.holds v value

/-- A pair that wrote its result finds it in its place. It is skipped if the result filled a
property that was unset, and otherwise computes the result again, which it does not read.
-/
theorem PairStep.settles_written {v : Value} {triggeredBy : CalculationTrigger}
    (step : e.PairStep event entity p s (.written v triggeredBy) after)
    (decided : e.decision event entity p s.rows = .ok (.calculate triggeredBy))
    (unread : ¬p.formula.ReadsOwn entity p.property.name)
    : e.Settled event entity p (PairStatus.written v triggeredBy).repeated after.rows := by
  have kept : after.rows.valueAt (p.place entity) = .ok v := step.valueAt
  by_cases filled : triggeredBy = .ifUnset ∧ v ≠ .null
  · obtain ⟨rfl, present⟩ := filled
    rw [repeated_of_filled present]
    refine ⟨?_, fun v value => by simp [PairStatus.value?] at value⟩
    simp only [statusOf, decision_filled decided kept rfl present]
  · have unfilled (fills : triggeredBy = .ifUnset) : v = .null := by
      by_contra present
      exact filled ⟨fills, present⟩
    have again := decision_unfilled decided kept unfilled
    rw [repeated_of_unfilled unfilled]
    constructor
    · rw [step.status_eq]
      symm
      apply statusOf_congr step.agree
      · intro place own
        rw [own]
        rfl
      · intro place own
        rw [own]
        exact unread
      · exact decided.trans again.symm
    · intro w value
      rw [← Option.some.inj value]
      exact kept

/-- A pair that does not read its own result is settled by a step, and is to end as it does when
the event fires again.
-/
theorem PairStep.settles (step : e.PairStep event entity p s status after)
    (unread : ¬p.formula.ReadsOwn entity p.property.name)
    : e.Settled event entity p status.repeated after.rows := by
  have unwritten (none : status.value? = none) (same : after.rows = s.rows)
      : e.Settled event entity p status.repeated after.rows := by
    rw [repeated_of_value?_eq_none none, same]
    refine ⟨step.status_eq.symm, fun v value => ?_⟩
    exact nomatch none.symm.trans value
  cases step with
  | unread | skipped | uncalculated | unwritten => exact unwritten rfl rfl
  | @written triggeredBy result log rows decided calculated stored =>
      have step : e.PairStep event entity p s (.written result.value triggeredBy)
          { rows, log } := .written decided calculated stored
      exact step.settles_written decided unread

end

-----------------------------------------------------------------------------------------
-- Runs that settle their pairs
-----------------------------------------------------------------------------------------

section

variable {e : Engine} {event : LifecycleEvent} {entity : String} {all ps : List Pair}
  {q : Pair} {s after : EngineState} {outcomes : List PairOutcome} {expected : PairStatus}

theorem Repeatable.tail {p : Pair} (repeatable : Repeatable entity (p :: ps))
    : Repeatable entity ps := by
  constructor
  · intro q qMember r rMember same
    exact repeatable.same q (List.mem_cons_of_mem p qMember) r (List.mem_cons_of_mem p rMember)
      same
  · intro q qMember r rMember
    exact repeatable.unread q (List.mem_cons_of_mem p qMember) r
      (List.mem_cons_of_mem p rMember)

/-- A settled pair stays settled when one of the pairs is processed, itself included. -/
theorem Settled.step {p : Pair} {status : PairStatus}
    (settled : e.Settled event entity q expected s.rows) (repeatable : Repeatable entity all)
    (pMember : p ∈ all) (qMember : q ∈ all)
    (step : e.PairStep event entity p s status after)
    : e.Settled event entity q expected after.rows := by
  by_cases own : q.place entity = p.place entity
  · obtain rfl := repeatable.same q qMember p pMember own
    have unchanged := step.agree_of_settled settled
    exact settled.frame unchanged id (fun _ => False.elim) fun _ => False.elim
  · apply settled.frame step.agree own
    · intro place same
      rw [same]
      rfl
    · intro place same
      rw [same]
      exact repeatable.unread q qMember p pMember

/-- A settled pair stays settled during a run, by induction on the run. -/
theorem PairRun.keeps_settled (run : e.PairRun event entity ps s outcomes after)
    (repeatable : Repeatable entity all) (among : ∀ p ∈ ps, p ∈ all) (qMember : q ∈ all)
    (settled : e.Settled event entity q expected s.rows)
    : e.Settled event entity q expected after.rows := by
  induction run with
  | nil => exact settled
  | @cons p rest s status middle outcomes after step others ih =>
      have kept := settled.step repeatable (among p List.mem_cons_self) qMember step
      exact ih (fun r member => among r (List.mem_cons_of_mem p member)) kept

/-- A run settles its pairs, and the statuses that they then have are those that were reported,
as they are repeated, by induction on the run.
-/
theorem PairRun.settles (run : e.PairRun event entity ps s outcomes after)
    (repeatable : Repeatable entity ps)
    : ps.map (e.outcomeOf event entity after.rows) = outcomes.map PairOutcome.repeated
      ∧ ∀ p ∈ ps, ∃ expected, e.Settled event entity p expected after.rows := by
  induction run with
  | nil => exact ⟨rfl, fun _ member => absurd member List.not_mem_nil⟩
  | @cons p rest s status middle outcomes after step others ih =>
      have first : e.Settled event entity p status.repeated after.rows := by
        have settled := step.settles
          (repeatable.unread p List.mem_cons_self p List.mem_cons_self)
        exact others.keeps_settled repeatable
          (fun q member => List.mem_cons_of_mem p member) List.mem_cons_self settled
      obtain ⟨listed, settled⟩ := ih repeatable.tail
      constructor
      · rw [List.map_cons, List.map_cons, listed, outcomeOf, first.ends]
        rfl
      · intro q member
        rcases List.mem_cons.mp member with rfl | later
        · exact ⟨_, first⟩
        · exact settled q later

/-- A run over settled pairs leaves the values as they are, so that each of its pairs has the
status for the rows that the run found, by induction on the run.
-/
theorem PairRun.of_settled (run : e.PairRun event entity ps s outcomes after)
    (settled : ∀ p ∈ ps, ∃ expected, e.Settled event entity p expected s.rows)
    : outcomes = ps.map (e.outcomeOf event entity s.rows)
      ∧ s.rows.AgreeExcept (fun _ => False) after.rows := by
  induction run with
  | nil s => exact ⟨rfl, .refl _ _⟩
  | @cons p rest s status middle outcomes after step others ih =>
      obtain ⟨expected, first⟩ := settled p List.mem_cons_self
      have unchanged := step.agree_of_settled first
      have same (q : Pair) : e.outcomeOf event entity middle.rows q
          = e.outcomeOf event entity s.rows q := by
        simp only [outcomeOf]
        rw [statusOf_frame unchanged id (fun _ => False.elim) fun _ => False.elim]
      obtain ⟨listed, more⟩ := ih fun q member => by
        obtain ⟨expected, kept⟩ := settled q (List.mem_cons_of_mem p member)
        exact ⟨expected, kept.frame unchanged id (fun _ => False.elim) fun _ => False.elim⟩
      refine ⟨?_, unchanged.trans more⟩
      rw [listed, step.status_eq, List.map_cons, List.map_congr_left fun q _ => same q]
      rfl

end

end Engine

open Engine in
/-- Firing the same event again changes nothing. If the computed properties of an entity have
different names and no formula among them reads one of them from the row itself, then the second
of two trigger runs with the same arguments leaves every value as the first left it, whatever
calls to the row store fail and however often a row is listed. It reports what the first
reported, except that a property that was filled because it was unset is now skipped.
-/
theorem trigger_again (e : Engine) (event : LifecycleEvent) (entity : String)
    (schema : EntitySchema) (rows : List String) (s : EngineState)
    (known : e.catalog.get? entity = some schema)
    (names : (schema.formulaProperties.map (·.1.name)).Nodup)
    (unread : ∀ computed ∈ schema.formulaProperties, ∀ other ∈ schema.formulaProperties,
      ¬computed.2.ReadsOwn schema.name other.1.name)
    : let first := e.trigger event entity rows s
      let second := e.trigger event entity rows first.2
      second.1.outcomes = first.1.outcomes.map PairOutcome.repeated
      ∧ first.2.rows.AgreeExcept (fun _ => False) second.2.rows := by
  have repeatable : Repeatable schema.name (pairs schema rows) := repeatable_pairs names unread
  have run := e.processPairs_run event schema.name (pairs schema rows) s
  have again := e.processPairs_run event schema.name (pairs schema rows)
    (e.processPairs event schema.name (pairs schema rows) s).2
  obtain ⟨repeated, settled⟩ := run.settles repeatable
  obtain ⟨listed, unchanged⟩ := again.of_settled settled
  simp only [trigger_eq, Catalog.entity, known]
  exact ⟨listed.trans repeated, unchanged⟩

open Engine in
/-- A task that is listed twice is done once, and seen each time that it is listed. -/
theorem trigger_again_relisted
    : let copying : Formula :=
        { id := "f", trigger := .afterUpdated,
          components := [⟨0, .operand (.var "row.task.size")⟩] }
      let holding (trigger : CalculationTrigger) : Formula :=
        { id := "g", resultAs := .boolean, trigger
          components := [⟨0, .operand (.literal (.bool true))⟩] }
      let schema : EntitySchema :=
        { name := "task"
          properties := [
            { name := "size" }, { name := "copy", formula := some copying },
            { name := "seen", formula := some (holding .always) },
            { name := "done", formula := some (holding .ifUnset) }] }
      let e : Engine := { catalog := .ofSchemas [schema] }
      let s : EngineState := { rows := ({} : RowStore).insertRow "task" "r" 0 }
      let first := e.trigger .afterCreated "task" ["r", "r"] s
      let second := e.trigger .afterCreated "task" ["r", "r"] first.2
      let skipped (property : String) : PairOutcome := ⟨property, "r", .skipped⟩
      let written (property : String) (cause : CalculationTrigger) : PairOutcome :=
        ⟨property, "r", .written (.bool true) cause⟩
      e.catalog.get? "task" = some schema
      ∧ (schema.formulaProperties.map (·.1.name)).Nodup
      ∧ (∀ computed ∈ schema.formulaProperties, ∀ other ∈ schema.formulaProperties,
          ¬computed.2.ReadsOwn "task" other.1.name)
      ∧ first.1.outcomes
        = [ skipped "copy", skipped "copy", written "seen" .always, written "seen" .always,
            written "done" .ifUnset, skipped "done"]
      ∧ second.1.outcomes
        = [ skipped "copy", skipped "copy", written "seen" .always, written "seen" .always,
            skipped "done", skipped "done"]
      ∧ first.2.rows.AgreeExcept (fun _ => False) second.2.rows := by
  intro copying holding schema e s first second skipped written
  have listed : schema.formulaProperties
      = [ (⟨"copy", .text, .null, some copying⟩, copying),
          (⟨"seen", .text, .null, some (holding .always)⟩, holding .always),
          (⟨"done", .text, .null, some (holding .ifUnset)⟩, holding .ifUnset)] := rfl
  have names : (schema.formulaProperties.map (·.1.name)).Nodup := by
    rw [listed]
    decide
  have unread : ∀ computed ∈ schema.formulaProperties, ∀ other ∈ schema.formulaProperties,
      ¬computed.2.ReadsOwn "task" other.1.name := by
    have paths : copying.variablePaths = ["row.task.size"] := by cbv
    have noPaths (trigger : CalculationTrigger) : (holding trigger).variablePaths = [] := by cbv
    have segments : (pathSegments "row.task.size".toList).map String.ofList
        = ["row", "task", "size"] := by decide
    rw [listed]
    intro computed member other otherMember reads
    simp only [List.mem_cons, List.not_mem_nil, or_false] at member otherMember
    rcases member with rfl | rfl | rfl
    · have size := (Formula.readsOwn_single paths segments).mp reads
      rcases otherMember with rfl | rfl | rfl <;> exact absurd size (by decide)
    all_goals
      obtain ⟨path, inPaths, _⟩ := reads
      rw [noPaths] at inPaths
      exact absurd inPaths List.not_mem_nil
  have reported : first.1.outcomes
      = [ skipped "copy", skipped "copy", written "seen" .always, written "seen" .always,
          written "done" .ifUnset, skipped "done"] := by cbv
  have firstRun : e.trigger .afterCreated "task" ["r", "r"] s = first := rfl
  have secondRun : e.trigger .afterCreated "task" ["r", "r"] first.2 = second := rfl
  have agreed := trigger_again e .afterCreated "task" schema ["r", "r"] s rfl names unread
  simp only [firstRun, secondRun, reported] at agreed
  exact ⟨rfl, names, unread, reported, agreed⟩

end RowFormula
