import RowFormula.Proofs.Trigger.Run

/-! Results as they are reported and as they are stored. A value that is cast and a value that is
put into a slot are the same value, so that what a trigger reports as written is what is read
afterwards.
-/

namespace RowFormula

/-- The last value reported for a property of a row is the one of an outcome after which no other
value is reported for it.
-/
theorem Engine.lastWritten_eq {before later : List PairOutcome} {o : PairOutcome} {v : Value}
    (written : o.status.value? = some v)
    (last
      : ∀ other ∈ later,
          other.property = o.property → other.row = o.row → other.status.value? = none)
    : lastWritten (before ++ o :: later) o.property o.row = some v := by
  have none : later.filterMap (fun other =>
      if other.property = o.property ∧ other.row = o.row then other.status.value? else none)
      = [] := by
    apply List.filterMap_eq_nil_iff.mpr
    intro other member
    split
    · next same => exact last other member same.1 same.2
    · rfl
  unfold lastWritten
  rw [List.filterMap_append, List.filterMap_cons, if_pos ⟨rfl, rfl⟩, written, none]
  exact List.getLast?_concat

/-- Casting a value and storing it in a slot agree: the slot of a value holds its cast, a cast
changes nothing a second time and fills the same slots, of which there is one unless the cast is
null. So the value that a pair reports as written is read back after the pair. Where pairs are
processed one after another it is read back after the run as well, if no other value is reported
for its place later.
-/
theorem casting_agrees_with_storing
    : (∀ (t : ResultType) (v : Value),
        (t.toSlots v).toValue = t.cast v
        ∧ t.cast (t.cast v) = t.cast v
        ∧ t.toSlots (t.cast v) = t.toSlots v
        ∧ (t.toSlots v).filled ≤ 1
        ∧ ((t.toSlots v).filled = 0 ↔ t.cast v = .null))
      ∧ ∀ (e : Engine) (event : LifecycleEvent) (entity : String) (s : EngineState) (v : Value),
          (∀ p : Engine.Pair,
            let processed := e.processPair event entity p s
            processed.1.status.value? = some v
            → processed.2.rows.readProperty entity p.row p.property.name = .ok v)
          ∧ ∀ (rows : List String) (schedule : List Nat) (before later : List PairOutcome)
              (o : PairOutcome),
              let report := (e.trigger event entity rows s schedule).1
              let after := (e.trigger event entity rows s schedule).2
              e.config.parallel = false
              → report.outcomes = before ++ o :: later
              → o.status.value? = some v
              → (∀ other ∈ later,
                  other.property = o.property → other.row = o.row → other.status.value? = none)
              → after.rows.readProperty report.entity o.row o.property = .ok v := by
  refine ⟨fun t v => ?_, fun e event entity s v => ⟨fun p => ?_, ?_⟩⟩
  · have stored := t.stores v
    exact ⟨stored.toValue_eq, stored.cast_eq, stored.toSlots_eq, stored.filled_le_one,
      stored.filled_eq_zero_iff⟩
  · obtain ⟨status, after, processed, step⟩ := e.processPair_step event entity p s
    simp only [processed]
    intro written
    have value := step.valueAt
    rw [written] at value
    exact value
  · intro rows schedule before later o report after sequential
    simp only [report, after, e.trigger_of_sequential s event entity sequential,
      Engine.trigger_eq]
    cases e.catalog.entity entity with
    | error cause => simp
    | ok schema =>
        dsimp only
        intro reported written last
        have run := e.processPairs_run event schema.name (Engine.pairs schema rows) s
        have value := run.valueAt o.property o.row
        rw [reported, Engine.lastWritten_eq written last] at value
        exact value

/-- An engine that works in sequence writes a list as text to a row that is listed twice, and the
text is read back.
-/
theorem casting_agrees_with_storing_twice
    : let property : PropertySchema := { name := "label" }
      let formula : Formula :=
        { id := "f", resultAs := .string, trigger := .always,
          components := [⟨0, .operand (.literal (.list [.bool true, .null]))⟩] }
      let schema : EntitySchema :=
        { name := "task", properties := [{ property with formula := some formula }] }
      let e : Engine := { catalog := .ofSchemas [schema], config := { parallel := false } }
      let s : EngineState := { rows := ({} : RowStore).insertRow "task" "r" 0 }
      let report := (e.trigger .afterCreated "task" ["r", "r"] s).1
      let o : PairOutcome := ⟨"label", "r", .written (.text "true,null") .always⟩
      e.config.parallel = false
      ∧ report.outcomes = [o] ++ o :: []
      ∧ o.status.value? = some (.text "true,null")
      ∧ (e.trigger .afterCreated "task" ["r", "r"] s).2.rows.readProperty "task" "r" "label"
        = .ok (.text "true,null") := by
  intro property formula schema e s report o
  have reported : report.outcomes = [o] ++ o :: [] := by cbv
  have read := (casting_agrees_with_storing.2 e .afterCreated "task" s (.text "true,null")).2
    ["r", "r"] [] [o] [] o rfl reported rfl (by simp)
  exact ⟨rfl, reported, rfl, read⟩

end RowFormula
