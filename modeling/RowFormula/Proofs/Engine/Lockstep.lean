import Mathlib.Data.List.Forall2
import RowFormula.Engine.Work

/-! Work of two engines in lockstep. Two pieces of work are alike that make the same calls to the
rows, whatever they are told by the log; engines whose logs differ do them in the same turns, with
the same answers from the rows.
-/

namespace RowFormula

namespace Work

/-- A call that goes to the rows and not to the log. -/
def Call.OnRows : Call → Prop
  | read _ | setValue _ | noteWrite _ => True
  | beginEntry .. | completeEntry .. => False

/-- Work that makes the same calls to the rows, calls to the log in the same places, and comes to
related results whatever the ids of log entries are.
-/
inductive Alike {α β : Type} (related : α → β → Prop) : Work α → Work β → Prop
  | done {result other} (same : related result other) : Alike related (.done result) (.done other)
  | rows {c next others} (onRows : c.OnRows)
    (alike : ∀ answer, Alike related (next answer) (others answer))
    : Alike related (.call c next) (.call c others)
  | begun {request trace otherRequest otherTrace next others}
    (alike : ∀ id other, Alike related (next id) (others other))
    : Alike related (.call (.beginEntry request trace) next)
        (.call (.beginEntry otherRequest otherTrace) others)
  | completed {id outcome otherId otherOutcome next others}
    (alike : Alike related (next ()) (others ()))
    : Alike related (.call (.completeEntry id outcome) next)
        (.call (.completeEntry otherId otherOutcome) others)

section

variable {α β γ δ : Type}

/-- Work in two parts, by induction on how the first parts are alike. -/
theorem Alike.bind {related : α → β → Prop} {afterwards : γ → δ → Prop} {w : Work α} {v : Work β}
    {next : α → Work γ} {others : β → Work δ} (alike : Alike related w v)
    (later : ∀ a b, related a b → Alike afterwards (next a) (others b))
    : Alike afterwards (w >>= next) (v >>= others) := by
  induction alike with
  | done same => exact later _ _ same
  | rows onRows _ ih => exact .rows onRows ih
  | begun _ ih => exact .begun ih
  | completed _ ih => exact .completed ih

theorem alike_ask {c : Call} (onRows : c.OnRows)
    : Alike Eq (ask c) (ask c) :=
  .rows onRows fun _ => .done rfl

theorem alike_ofQuery (q : Query α) : Alike Eq (ofQuery q) (ofQuery q) := by
  induction q with
  | done outcome => exact .done rfl
  | visit rowId rest ih => exact ih.bind fun found _ same => .done (congrArg _ same)
  | ask c next ih => exact .rows trivial ih

theorem alike_write (w : WriteRecord) : Alike Eq (write w) (write w) := by
  refine (alike_ask (c := .setValue w) trivial).bind ?_
  rintro (cause | _) _ rfl
  · exact .done rfl
  · exact (alike_ask (c := .noteWrite w) trivial).bind fun _ _ _ => .done rfl

end

-----------------------------------------------------------------------------------------
-- Turns and runs
-----------------------------------------------------------------------------------------

section

variable {α β : Type} {related : α → β → Prop} {e other : Engine} {s t : EngineState}
  (outage : e.outage = other.outage)

include outage

/-- A call to the rows is answered alike by engines that find the same rows, and leaves the same. -/
theorem perform_lockstep {c : Call} (onRows : c.OnRows) (same : s.rows = t.rows)
    : (e.perform c s).1 = (other.perform c t).1
      ∧ (e.perform c s).2.rows = (other.perform c t).2.rows := by
  cases c with
  | read c =>
      refine ⟨?_, same⟩
      simp only [Engine.perform, same, outage]
  | beginEntry request trace => exact onRows.elim
  | completeEntry id outcome => exact onRows.elim
  | setValue w =>
      simp only [Engine.perform, same, outage]
      cases RowAccess.beginWrite ⟨t.rows, other.outage⟩ w with
      | error cause => exact ⟨rfl, same⟩
      | ok rows => exact ⟨rfl, rfl⟩
  | noteWrite w => exact ⟨rfl, congrArg (·.noteWrite w) same⟩

theorem Alike.turn {w : Work α} {v : Work β} (alike : Alike related w v) (same : s.rows = t.rows)
    : Alike related (w.turn e s).1 (v.turn other t).1
      ∧ (w.turn e s).2.rows = (v.turn other t).2.rows := by
  cases alike with
  | done related => exact ⟨.done related, same⟩
  | rows onRows alike =>
      obtain ⟨answer, rows⟩ := perform_lockstep outage onRows same
      refine ⟨?_, rows⟩
      simp only [Work.turn, answer]
      exact alike _
  | begun alike => exact ⟨alike _ _, same⟩
  | completed alike => exact ⟨alike, same⟩

/-- Work that is alike comes to related results and leaves the same rows, by induction on how it is
alike.
-/
theorem Alike.run {w : Work α} {v : Work β} (alike : Alike related w v) (same : s.rows = t.rows)
    : related (w.run e s).1 (v.run other t).1 ∧ (w.run e s).2.rows = (v.run other t).2.rows := by
  induction alike generalizing s t with
  | done related => exact ⟨related, same⟩
  | rows onRows _ ih =>
      obtain ⟨answer, rows⟩ := perform_lockstep outage onRows same
      simp only [Work.run, answer]
      exact ih _ rows
  | begun _ ih => exact ih _ _ same
  | completed _ ih => exact ih same

variable {ws : List (Work α)} {vs : List (Work β)}

/-- A turn of one worker leaves the workers alike, by induction on them. -/
theorem Alike.turnAt (place : Nat) (alike : List.Forall₂ (Alike related) ws vs)
    (same : s.rows = t.rows)
    : List.Forall₂ (Alike related) (Work.turnAt e place ws s).1 (Work.turnAt other place vs t).1
      ∧ (Work.turnAt e place ws s).2.rows = (Work.turnAt other place vs t).2.rows := by
  induction alike generalizing place with
  | nil => cases place <;> exact ⟨.nil, same⟩
  | cons first others ih =>
      cases place with
      | zero =>
          obtain ⟨turned, rows⟩ := first.turn outage same
          exact ⟨.cons turned others, rows⟩
      | succ place =>
          obtain ⟨turned, rows⟩ := ih place
          exact ⟨.cons first turned, rows⟩

/-- Workers that take turns stay alike, by induction on the schedule. -/
theorem Alike.takeTurns (schedule : List Nat) (alike : List.Forall₂ (Alike related) ws vs)
    (same : s.rows = t.rows)
    : List.Forall₂ (Alike related) (Work.takeTurns e schedule ws s).1
        (Work.takeTurns other schedule vs t).1
      ∧ (Work.takeTurns e schedule ws s).2.rows
        = (Work.takeTurns other schedule vs t).2.rows := by
  induction schedule generalizing ws vs s t with
  | nil => exact ⟨alike, same⟩
  | cons place later ih =>
      obtain ⟨turned, rows⟩ := Alike.turnAt outage place alike same
      exact ih turned rows

theorem Alike.runAll (alike : List.Forall₂ (Alike related) ws vs) (same : s.rows = t.rows)
    : List.Forall₂ related (Work.runAll e ws s).1 (Work.runAll other vs t).1
      ∧ (Work.runAll e ws s).2.rows = (Work.runAll other vs t).2.rows := by
  induction alike generalizing s t with
  | nil => exact ⟨.nil, same⟩
  | cons first _ ih =>
      obtain ⟨result, rows⟩ := first.run outage same
      obtain ⟨results, after⟩ := ih rows
      exact ⟨.cons result results, after⟩

/-- Whatever turns they take, workers that are alike come to related results and leave the same
rows.
-/
theorem Alike.interleave (schedule : List Nat) (alike : List.Forall₂ (Alike related) ws vs)
    (same : s.rows = t.rows)
    : List.Forall₂ related (Work.interleave e schedule ws s).1
        (Work.interleave other schedule vs t).1
      ∧ (Work.interleave e schedule ws s).2.rows
        = (Work.interleave other schedule vs t).2.rows := by
  obtain ⟨turned, rows⟩ := Alike.takeTurns outage schedule alike same
  exact Alike.runAll outage turned rows

end

end Work

end RowFormula
