import RowFormula.Proofs.Decimal.Whole
import RowFormula.Proofs.Operator.Comparisons
import RowFormula.Variable.Aggregate

/-! The least and the greatest of several dates. Dates are compared by their milliseconds there,
while the comparison operators tell apart dates of one millisecond as well, and put a leap second
before the second that follows it.
-/

namespace RowFormula

open Calendar Decimal

-----------------------------------------------------------------------------------------
-- Instants and their milliseconds
-----------------------------------------------------------------------------------------

namespace Calendar.Instant

/-- The milliseconds of every instant are counted exactly by a double. -/
theorem natAbs_millis_lt (d : Instant) : d.millis.natAbs < 2 ^ 53 := by
  have inRange := d.inRange
  have nanos := d.nanos_lt
  rw [firstSecond_eq, lastSecond_eq] at inRange
  simp only [nanosPerSecond] at nanos
  simp only [millis]
  omega

/-- Outside of leap seconds, an earlier instant has no more milliseconds. -/
theorem millis_le_of_order {a b : Instant} (before : a.order b = .lt) (regular : a.isLeap = false)
    : a.millis ≤ b.millis := by
  have nanos : a.nanos < nanosPerSecond := by simpa [isLeap] using regular
  simp only [nanosPerSecond] at nanos
  simp only [millis]
  rcases order_eq_lt_iff.mp before with sooner | ⟨same, fewer⟩ <;> omega

end Calendar.Instant

/-- One date is less than another exactly when it is the earlier instant. -/
theorem lessThan_date {a b : Instant}
    : Operator.lessThan.apply (.date a) (.date b) = .bool true ↔ a.order b = .lt := by
  simp only [Operator.apply, Operator.compares, Operator.order?, Option.any_some, Value.bool.injEq,
    Ordering.isLT_iff_eq_lt]

theorem greaterThan_date {a b : Instant}
    : Operator.greaterThan.apply (.date a) (.date b) = .bool true ↔ b.order a = .lt := by
  simp only [Operator.apply, Operator.compares, Operator.order?, Option.any_some, Value.bool.injEq,
    Ordering.isGT_iff_eq_gt, Instant.order_eq_gt_iff]

-----------------------------------------------------------------------------------------
-- The first of the least
-----------------------------------------------------------------------------------------

/-- The first item of a list whose key is the least. -/
def FirstLeast {α : Type} (key : α → Int) (items : List α) (least : α) : Prop :=
  ∃ before after,
    items = before ++ least :: after
    ∧ (∀ item ∈ before, key least < key item)
    ∧ ∀ item ∈ after, key least ≤ key item

namespace FirstLeast

variable {α : Type} {key : α → Int} {items : List α} {least : α}

theorem single (item : α) : FirstLeast key [item] item :=
  ⟨[], [], rfl, by simp, by simp⟩

theorem mem (first : FirstLeast key items least) : least ∈ items := by
  obtain ⟨before, after, rfl, _⟩ := first
  exact List.mem_append_right before List.mem_cons_self

theorem le (first : FirstLeast key items least) {item : α} (member : item ∈ items)
    : key least ≤ key item := by
  obtain ⟨before, after, rfl, more, noLess⟩ := first
  rcases List.mem_append.mp member with early | late
  · exact (more item early).le
  · rcases List.mem_cons.mp late with rfl | late
    · exact le_refl _
    · exact noLess item late

/-- A further item takes over only when its key is less. -/
theorem concat (first : FirstLeast key items least) (item : α)
    : FirstLeast key (items ++ [item]) (if key item < key least then item else least) := by
  split
  · next less =>
      refine ⟨items, [], rfl, fun other member => ?_, by simp⟩
      exact less.trans_le (first.le member)
  · next noLess =>
      obtain ⟨before, after, rfl, more, others⟩ := first
      refine ⟨before, after ++ [item], by simp, more, fun other member => ?_⟩
      rcases List.mem_append.mp member with early | late
      · exact others other early
      · rw [List.mem_singleton.mp late]
        exact not_lt.mp noLess

/-- Going through further items keeps the first of the least, by induction on them. -/
theorem foldl (first : FirstLeast key items least) (rest : List α)
    : FirstLeast key (items ++ rest)
        (rest.foldl (fun kept item => if key item < key kept then item else kept) least) := by
  induction rest generalizing items least with
  | nil => simpa using first
  | cons item rest ih =>
      have next := ih (first.concat item)
      rwa [List.append_assoc, List.singleton_append] at next

/-- The least keys of two lists with the same items are equal. -/
theorem key_eq {others : List α} {other : α} (first : FirstLeast key items least)
    (second : FirstLeast key others other) (same : others.Perm items)
    : key other = key least := by
  have below := first.le (same.mem_iff.mp second.mem)
  have above := second.le (same.mem_iff.mpr first.mem)
  omega

end FirstLeast

-----------------------------------------------------------------------------------------
-- The functions on dates
-----------------------------------------------------------------------------------------

namespace Aggregator

/-- Where all items are dates, the first of the best by milliseconds is taken. -/
theorem extreme_dates {better : Float → Float → Bool} {key : Instant → Int}
    (agrees
      : ∀ a b : Instant,
          better (Float.ofInt a.millis) (Float.ofInt b.millis) = true ↔ key a < key b)
    {dates : List Instant} (present : dates ≠ [])
    : ∃ d, extreme better (dates.map .date) = .date d ∧ FirstLeast key dates d := by
  obtain ⟨d, rest, rfl⟩ := List.exists_cons_of_ne_nil present
  refine ⟨_, ?_, (FirstLeast.single d).foldl rest⟩
  have all
      : extreme better ((d :: rest).map .date)
        = best (fun a b => better a.toNumber b.toNumber) id ((d :: rest).map .date) :=
    if_pos (by simp [isDate])
  have taken (a b : Instant)
      : (if better (Value.date b).toNumber (Value.date a).toNumber = true then Value.date b
          else .date a)
        = .date (if key b < key a then b else a) := by
    simp only [Value.toNumber, agrees]
    split <;> rfl
  rw [all, List.map_cons, best, List.foldl_map]
  exact List.foldl_hom Value.date taken

theorem min_dates {values : List Value} {dates : List Instant}
    (only : Value.leavesOf values = dates.map .date) (present : dates ≠ [])
    : ∃ d, Aggregator.min.apply values = .date d ∧ FirstLeast Instant.millis dates d := by
  rw [apply, only]
  refine extreme_dates (fun a b => ?_) present
  rw [decide_eq_true_iff, ofInt_lt_iff a.natAbs_millis_lt b.natAbs_millis_lt]

theorem max_dates {values : List Value} {dates : List Instant}
    (only : Value.leavesOf values = dates.map .date) (present : dates ≠ [])
    : ∃ d, Aggregator.max.apply values = .date d ∧ FirstLeast (-·.millis) dates d := by
  rw [apply, only]
  refine extreme_dates (fun a b => ?_) present
  rw [decide_eq_true_iff, ofInt_lt_iff b.natAbs_millis_lt a.natAbs_millis_lt]
  omega

end Aggregator

/-- Of several dates the function `min` gives the first with the fewest milliseconds, and `max` the
first with the most. A date that is less than the least one, or greater than the greatest, has as
many milliseconds, unless leap seconds are among them. In any other order of the same dates the
date that is given has as many milliseconds.
-/
theorem extreme_date_by_millis (values : List Value) (dates : List Instant)
    (only : Value.leavesOf values = dates.map .date) (present : dates ≠ [])
    : (∃ least,
        Aggregator.min.apply values = .date least
        ∧ FirstLeast Instant.millis dates least
        ∧ ∀ d ∈ dates,
            Operator.lessThan.apply (.date d) (.date least) = .bool true
            → d.millis = least.millis ∨ d.isLeap)
      ∧ (∃ greatest,
          Aggregator.max.apply values = .date greatest
          ∧ FirstLeast (-·.millis) dates greatest
          ∧ ∀ d ∈ dates,
              Operator.greaterThan.apply (.date d) (.date greatest) = .bool true
              → d.millis = greatest.millis ∨ greatest.isLeap)
      ∧ ∀ (shuffled : List Value) (others : List Instant),
          Value.leavesOf shuffled = others.map .date
          → others.Perm dates
          → ∀ f ∈ [Aggregator.min, .max],
              ∃ d other,
                f.apply values = .date d
                ∧ f.apply shuffled = .date other
                ∧ other.millis = d.millis := by
  obtain ⟨least, leastGiven, leastFirst⟩ := Aggregator.min_dates only present
  obtain ⟨greatest, greatestGiven, greatestFirst⟩ := Aggregator.max_dates only present
  refine ⟨⟨least, leastGiven, leastFirst, fun d member less => ?_⟩,
    ⟨greatest, greatestGiven, greatestFirst, fun d member greater => ?_⟩,
    fun shuffled others onlyToo same f extreme => ?_⟩
  · cases regular : d.isLeap with
    | true => exact .inr rfl
    | false =>
        have noMore := Instant.millis_le_of_order (lessThan_date.mp less) regular
        have noLess := leastFirst.le member
        exact .inl (by omega)
  · cases regular : greatest.isLeap with
    | true => exact .inr rfl
    | false =>
        have noMore := Instant.millis_le_of_order (greaterThan_date.mp greater) regular
        have noLess := greatestFirst.le member
        exact .inl (by omega)
  · have presentToo : others ≠ [] := by
      rintro rfl
      exact present same.nil_eq.symm
    rcases List.mem_pair.mp extreme with rfl | rfl
    · obtain ⟨other, otherGiven, otherFirst⟩ := Aggregator.min_dates onlyToo presentToo
      exact ⟨least, other, leastGiven, otherGiven, leastFirst.key_eq otherFirst same⟩
    · obtain ⟨other, otherGiven, otherFirst⟩ := Aggregator.max_dates onlyToo presentToo
      have opposite := greatestFirst.key_eq otherFirst same
      exact ⟨greatest, other, greatestGiven, otherGiven, by omega⟩

/-- The second after a leap second is the least of the two, though the leap second is less. -/
theorem extreme_date_by_millis_leap
    : let leap : Instant := ⟨59, 1900000000, by decide, by decide, by decide⟩
      let next : Instant := ⟨60, 0, by decide, by decide, by decide⟩
      let values : List Value := [.list [.null, .date leap], .date next]
      Value.leavesOf values = [leap, next].map .date
      ∧ [leap, next] ≠ []
      ∧ Aggregator.min.apply values = .date next
      ∧ Operator.lessThan.apply (.date leap) (.date next) = .bool true
      ∧ leap.isLeap := by
  intro leap next values
  have only : Value.leavesOf values = [leap, next].map .date := rfl
  have present : [leap, next] ≠ [] := List.cons_ne_nil _ _
  obtain ⟨⟨least, given, first, -⟩, -⟩ :=
    extreme_date_by_millis values [leap, next] only present
  have fewest := first.le (List.mem_of_getElem? (i := 1) rfl)
  obtain rfl : least = next := by
    rcases List.mem_pair.mp first.mem with rfl | same
    · exact absurd fewest (by decide)
    · exact same
  exact ⟨only, present, given, rfl, rfl⟩

/-- Of two dates in one millisecond the first that is listed counts as the least, also when the
other is less.
-/
theorem extreme_date_within_millisecond
    : let early : Instant := ⟨0, 0, by decide, by decide, by decide⟩
      let late : Instant := ⟨0, 1, by decide, by decide, by decide⟩
      Aggregator.min.apply [.date late, .date early] = .date late
      ∧ Operator.lessThan.apply (.date early) (.date late) = .bool true
      ∧ Aggregator.min.apply [.date early, .date late] = .date early :=
  ⟨rfl, rfl, rfl⟩

end RowFormula
