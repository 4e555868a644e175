import RowFormula.Proofs.Operator.MovedDates

/-! Dates moved by the days that a text writes: the longest start of the text that is an integer
counts, however large it is.
-/

namespace RowFormula

open Calendar Decimal

-----------------------------------------------------------------------------------------
-- Integers at the start of a text
-----------------------------------------------------------------------------------------

/-- A text that is an integer: an optional sign and at least one ASCII digit. -/
def WritesInteger (text : List Char) (k : Int) : Prop :=
  ∃ sign digits,
    text = sign ++ digits
    ∧ sign ∈ [[], ['+'], ['-']]
    ∧ digits ≠ []
    ∧ (∀ c ∈ digits, c.isDigit = true)
    ∧ k = if sign = ['-'] then -(digitsValue digits : Int) else digitsValue digits

/-- The longest start of a text that is an integer. -/
structure LeadingInteger (text start : List Char) (k : Int) : Prop where
  starts : start <+: text
  writes : WritesInteger start k
  longest : ∀ other j, other <+: text → WritesInteger other j → other.length ≤ start.length

theorem length_le_takeWhile {start text : List Char} {p : Char → Bool} (starts : start <+: text)
    (only : ∀ c ∈ start, p c = true) : start.length ≤ (text.takeWhile p).length := by
  obtain ⟨rest, rfl⟩ := starts
  rw [List.takeWhile_append_of_pos only, List.length_append]
  exact Nat.le_add_right _ _

theorem exists_sign (text : List Char)
    : ∃ sign ∈ [[], ['+'], ['-']],
        text = sign ++ (takeSign text).2 ∧ (takeSign text).1 = decide (sign = ['-']) := by
  fun_cases takeSign text with
  | case1 rest => exact ⟨['-'], by decide, rfl, rfl⟩
  | case2 rest => exact ⟨['+'], by decide, rfl, rfl⟩
  | case3 => exact ⟨[], by decide, rfl, rfl⟩

/-- What stands in front of the digits of an integer is the sign of the whole text. -/
theorem takeSign_of_starts {sign digits text : List Char} (member : sign ∈ [[], ['+'], ['-']])
    (present : digits ≠ []) (only : ∀ c ∈ digits, c.isDigit = true)
    (starts : sign ++ digits <+: text)
    : text = sign ++ (takeSign text).2 ∧ digits <+: (takeSign text).2 := by
  obtain ⟨rest, rfl⟩ := starts
  have taken : (takeSign (sign ++ digits ++ rest)).2 = digits ++ rest := by
    obtain ⟨first, more, rfl⟩ := List.exists_cons_of_ne_nil present
    have digit := only first List.mem_cons_self
    simp only [List.mem_cons, List.not_mem_nil, or_false] at member
    rcases member with rfl | rfl | rfl
    · have minus : first ≠ '-' := by
        rintro rfl
        exact absurd digit (by decide)
      have plus : first ≠ '+' := by
        rintro rfl
        exact absurd digit (by decide)
      simp [takeSign, minus, plus]
    · rfl
    · rfl
  rw [taken]
  exact ⟨List.append_assoc _ _ _, List.prefix_append _ _⟩

/-- An integer that fits a signed word. -/
def FitsWord (k : Int) : Prop :=
  -2 ^ 63 ≤ k ∧ k < 2 ^ 63

instance (k : Int) : Decidable (FitsWord k) :=
  inferInstanceAs (Decidable (_ ∧ _))

theorem LeadingInteger.unique {text start other : List Char} {k j : Int}
    (first : LeadingInteger text start k) (second : LeadingInteger text other j) : k = j := by
  have fewer := first.longest other j second.starts second.writes
  have more := second.longest start k first.starts first.writes
  have same : start = other :=
    (List.prefix_of_prefix_length_le first.starts second.starts more).eq_of_length
      (le_antisymm more fewer)
  obtain ⟨sign, digits, written, member, present, only, rfl⟩ := first.writes
  obtain ⟨sign', digits', written', member', present', only', rfl⟩ := second.writes
  have whole := (takeSign_of_starts member present only (written ▸ first.starts)).1
  have whole' := (takeSign_of_starts member' present' only' (written' ▸ second.starts)).1
  obtain rfl : sign = sign' := List.append_cancel_right (whole.symm.trans whole')
  obtain rfl : digits = digits' :=
    List.append_cancel_left (written.symm.trans (same.trans written'))
  rfl

-----------------------------------------------------------------------------------------
-- Reading the integer
-----------------------------------------------------------------------------------------

theorem leadingInteger?_eq (text : List Char)
    : Operator.leadingInteger? text
      = if (takeSign text).2.takeWhile Char.isDigit = [] then none
        else
          let k : Int := digitsValue ((takeSign text).2.takeWhile Char.isDigit)
          let k := if (takeSign text).1 then -k else k
          if FitsWord k then some (Int64.ofInt k) else none := by
  rw [Operator.leadingInteger?]
  obtain ⟨negative, rest⟩ := takeSign text
  simp only [spanDigits, List.span_eq_takeWhile_dropWhile]
  cases rest.takeWhile Char.isDigit with
  | nil => rfl
  | cons first more =>
      rw [if_neg (List.cons_ne_nil first more)]
      refine if_congr ?_ rfl rfl
      rw [Bool.and_eq_true, decide_eq_true_eq, decide_eq_true_eq]
      rfl

/-- Either no start of the text is an integer, or the longest that is one is read. -/
theorem leadingInteger?_spec (text : List Char)
    : (∃ start k,
        LeadingInteger text start k
        ∧ Operator.leadingInteger? text
          = if FitsWord k then some (Int64.ofInt k) else none)
      ∨ (∀ start k, start <+: text → ¬WritesInteger start k)
        ∧ Operator.leadingInteger? text = none := by
  obtain ⟨sign, member, whole, negative⟩ := exists_sign text
  rw [leadingInteger?_eq]
  by_cases empty : (takeSign text).2.takeWhile Char.isDigit = []
  · refine .inr ⟨fun start k starts writes => ?_, if_pos empty⟩
    obtain ⟨sign', digits, rfl, member', present, only, rfl⟩ := writes
    have inside := (takeSign_of_starts member' present only starts).2
    have short := length_le_takeWhile inside only
    rw [empty, List.length_nil] at short
    exact present (List.length_eq_zero_iff.mp (Nat.le_zero.mp short))
  · refine .inl ⟨sign ++ (takeSign text).2.takeWhile Char.isDigit, _, ⟨?_, ?_, ?_⟩, if_neg empty⟩
    · conv_rhs => rw [whole]
      exact (List.prefix_append_right_inj sign).mpr (List.takeWhile_prefix _)
    · refine ⟨sign, _, rfl, member, empty, fun c digit => List.mem_takeWhile_imp digit, ?_⟩
      simp only [negative, decide_eq_true_eq]
    · intro other j starts writes
      obtain ⟨sign', digits, rfl, member', present, only, rfl⟩ := writes
      obtain ⟨whole', inside⟩ := takeSign_of_starts member' present only starts
      obtain rfl : sign' = sign := List.append_cancel_right (whole'.symm.trans whole)
      rw [List.length_append, List.length_append]
      exact Nat.add_le_add_left (length_le_takeWhile inside only) _

-----------------------------------------------------------------------------------------
-- Written days
-----------------------------------------------------------------------------------------

/-- The days that a text writes: the integer at the start of the trimmed text, and zero when there
is none or when it does not fit a signed word.
-/
def DaysWritten (s : String) (k : Int) : Prop :=
  (∃ start, LeadingInteger (Text.trimmed s.toList) start k ∧ FitsWord k)
  ∨ k = 0 ∧ ∀ start j, LeadingInteger (Text.trimmed s.toList) start j → ¬FitsWord j

theorem DaysWritten.unique {s : String} {k j : Int} (first : DaysWritten s k)
    (second : DaysWritten s j) : k = j := by
  rcases first with ⟨start, leading, fits⟩ | ⟨rfl, none⟩
  · rcases second with ⟨other, leading', -⟩ | ⟨-, none⟩
    · exact leading.unique leading'
    · exact absurd fits (none start k leading)
  · rcases second with ⟨other, leading, fits⟩ | ⟨rfl, -⟩
    · exact absurd fits (none other j leading)
    · rfl

theorem daysWritten_daysOf (s : String) : DaysWritten s (Operator.daysOf (.text s)).toInt := by
  rw [Operator.daysOf]
  rcases leadingInteger?_spec (Text.trimmed s.toList) with ⟨start, k, leading, read⟩ | ⟨none, read⟩
  · rw [read]
    split
    · next fits =>
        rw [Option.getD_some, Int64.toInt_ofInt_of_le fits.1 fits.2]
        exact .inl ⟨start, leading, fits⟩
    · next tooLarge =>
        refine .inr ⟨rfl, fun other j leading' => ?_⟩
        rwa [← leading.unique leading']
  · rw [read]
    exact .inr ⟨rfl, fun start j leading => absurd leading.writes (none start j leading.starts)⟩

/-- Outside of a leap second a text moves a date by the days that it writes, in both directions,
and leaves it where it is when they lead out of the supported years.
-/
theorem moving_by_written_days (d : Instant) (regular : d.isLeap = false) (s : String)
    : ∃ k,
        DaysWritten s k
        ∧ (∀ j, DaysWritten s j → j = k)
        ∧ (∀ e, d.Later k e → Operator.dateAddDays.apply (.date d) (.text s) = .date e)
        ∧ ((∀ e, ¬d.Later k e) → Operator.dateAddDays.apply (.date d) (.text s) = .date d)
        ∧ ∀ t e,
            DaysWritten t (-k)
            → d.Later k e
            → Operator.dateAddDays.apply (Operator.dateAddDays.apply (.date d) (.text s)) (.text t)
              = .date d := by
  have written := daysWritten_daysOf s
  rw [Operator.dateAddDays_eq rfl]
  refine ⟨_, written, fun j other => other.unique written, fun e later => ?_,
    fun unreachable => ?_, fun t e back later => ?_⟩
  · rw [later.addDays_eq regular]
  · rw [Instant.addDays_of_unreachable regular unreachable]
  · have stillRegular : e.isLeap = false := later.isLeap_eq.trans regular
    rw [later.addDays_eq regular, Operator.dateAddDays_eq rfl, (daysWritten_daysOf t).unique back,
      later.back.addDays_eq stillRegular]

/-- One day back from the first of March of a leap year, and forth again. -/
theorem moving_by_written_days_back
    : let d : Instant := ⟨1709251200, 0, by decide, by decide, by decide⟩
      let e : Instant := ⟨1709164800, 0, by decide, by decide, by decide⟩
      d.isLeap = false
      ∧ DaysWritten " -1 day" (-1)
      ∧ DaysWritten "+01-" 1
      ∧ d.Later (-1) e
      ∧ Operator.dateAddDays.apply (.date d) (.text " -1 day") = .date e
      ∧ Operator.dateAddDays.apply (.date e) (.text "+01-") = .date d := by
  intro d e
  have regular : d.isLeap = false := rfl
  have there : DaysWritten " -1 day" (-1) := daysWritten_daysOf " -1 day"
  have back : DaysWritten "+01-" 1 := daysWritten_daysOf "+01-"
  have later : d.Later (-1) e := ⟨rfl, rfl⟩
  obtain ⟨k, -, only, reached, -, undone⟩ := moving_by_written_days d regular " -1 day"
  obtain rfl := only (-1) there
  have moved := reached e later
  have returned := undone "+01-" e back later
  rw [moved] at returned
  exact ⟨regular, there, back, later, moved, returned⟩

end RowFormula
