import Mathlib
import RowFormula.Calendar.Instant

/-! Instants moved by whole days. Outside of leap seconds a move is undone by the move back, and
a move that leads out of the supported years is no move.
-/

namespace RowFormula.Calendar

theorem firstSecond_eq : firstSecond = -8334601228800 :=
  rfl

theorem lastSecond_eq : lastSecond = 8210266876799 :=
  rfl

namespace Instant

variable {d e : Instant} {days : Int}

theorem ofParts?_eq_some_iff {seconds : Int} {nanos : Nat}
    : ofParts? seconds nanos = some d ↔ d.seconds = seconds ∧ d.nanos = nanos := by
  simp only [ofParts?]
  constructor
  · intro made
    split at made
    · obtain rfl := Option.some.inj made
      exact ⟨rfl, rfl⟩
    · cases made
  · rintro ⟨rfl, rfl⟩
    exact dif_pos ⟨d.inRange, d.nanos_lt, d.endsMinute⟩

/-- An instant is its seconds and nanoseconds. -/
theorem eq_of_parts (seconds : d.seconds = e.seconds) (nanos : d.nanos = e.nanos) : d = e := by
  have first : ofParts? e.seconds e.nanos = some d := ofParts?_eq_some_iff.mpr ⟨seconds, nanos⟩
  have second : ofParts? e.seconds e.nanos = some e := ofParts?_eq_some_iff.mpr ⟨rfl, rfl⟩
  exact Option.some.inj (first.symm.trans second)

/-- The second instant is some whole days after the first. -/
def Later (d : Instant) (days : Int) (e : Instant) : Prop :=
  e.seconds = d.seconds + 86400 * days ∧ e.nanos = d.nanos

theorem Later.back (later : d.Later days e) : e.Later (-days) d := by
  obtain ⟨seconds, nanos⟩ := later
  exact ⟨by omega, nanos.symm⟩

theorem Later.isLeap_eq (later : d.Later days e) : e.isLeap = d.isLeap := by
  rw [isLeap, isLeap, later.2]

/-- Outside of a leap second a move keeps the fraction of the second. -/
theorem addDays_eq (regular : d.isLeap = false)
    : d.addDays days = (ofParts? (d.seconds + 86400 * days) d.nanos).getD d := by
  by_cases none : days = 0
  · have same : ofParts? (d.seconds + 86400 * days) d.nanos = some d :=
      ofParts?_eq_some_iff.mpr ⟨by omega, rfl⟩
    rw [same, addDays, if_pos none, Option.getD_some]
  · simp only [addDays, if_neg none, outsideLeap, regular]
    rfl

theorem Later.addDays_eq (later : d.Later days e) (regular : d.isLeap = false)
    : d.addDays days = e := by
  rw [Instant.addDays_eq regular, ofParts?_eq_some_iff.mpr later, Option.getD_some]

theorem addDays_of_unreachable (regular : d.isLeap = false) (unreachable : ∀ e, ¬d.Later days e)
    : d.addDays days = d := by
  have none : ofParts? (d.seconds + 86400 * days) d.nanos = none :=
    Option.eq_none_iff_forall_ne_some.mpr fun e made =>
      unreachable e (ofParts?_eq_some_iff.mp made)
  rw [Instant.addDays_eq regular, none, Option.getD_none]

theorem outsideLeap_near (d : Instant) (forward : Bool)
    : d.seconds ≤ (d.outsideLeap forward).1 ∧ (d.outsideLeap forward).1 ≤ d.seconds + 1 := by
  cases leap : d.isLeap <;> cases forward <;> simp [outsideLeap, leap]

/-- So many days lead out of the supported years from everywhere. -/
theorem addDays_of_far (far : 2 ^ 32 ≤ days.natAbs) : d.addDays days = d := by
  have inRange := d.inRange
  rw [firstSecond_eq, lastSecond_eq] at inRange
  have some : days ≠ 0 := by
    rintro rfl
    exact absurd far (by decide)
  have none (seconds : Int) (nanos : Nat) (near : d.seconds ≤ seconds ∧ seconds ≤ d.seconds + 1)
      : ofParts? (seconds + secondsPerDay * days) nanos = none := by
    refine dif_neg fun fits => ?_
    have moved := fits.1
    rw [firstSecond_eq, lastSecond_eq, secondsPerDay] at moved
    omega
  simp only [addDays, if_neg some, none _ _ (outsideLeap_near d _), Option.getD_none]

end Instant

end RowFormula.Calendar
