import RowFormula.Operator
import RowFormula.Proofs.Calendar.Moving
import RowFormula.Proofs.Decimal.Places

/-! The six comparison operators describe one order. Every value that can be compared has a place
among the values of its kind, and all six operators are read off the comparison of two places.
-/

namespace RowFormula

open Calendar Decimal

-----------------------------------------------------------------------------------------
-- Instants
-----------------------------------------------------------------------------------------

namespace Calendar.Instant

variable {d e : Instant}

theorem order_eq_lt_iff
    : d.order e = .lt ↔ d.seconds < e.seconds ∨ d.seconds = e.seconds ∧ d.nanos < e.nanos := by
  simp only [order, Ordering.then_eq_lt, Int.compare_eq_lt, Int.compare_eq_eq, Nat.compare_eq_lt]

theorem order_eq_eq_iff : d.order e = .eq ↔ d = e := by
  simp only [order, Ordering.then_eq_eq, Int.compare_eq_eq, Nat.compare_eq_eq]
  constructor
  · rintro ⟨seconds, nanos⟩
    exact eq_of_parts seconds nanos
  · rintro rfl
    exact ⟨rfl, rfl⟩

theorem order_eq_gt_iff : d.order e = .gt ↔ e.order d = .lt := by
  rw [order_eq_lt_iff, eq_comm (a := e.seconds)]
  simp only [order, Ordering.then_eq_gt, Int.compare_eq_gt, Int.compare_eq_eq, Nat.compare_eq_gt]

end Calendar.Instant

-----------------------------------------------------------------------------------------
-- Places of values
-----------------------------------------------------------------------------------------

/-- The kind of a value and its place among the values of that kind: numbers by their order, texts
by their code points, dates by seconds and nanoseconds. Other values, and NaN, have no place.
-/
def Value.place? : Value → Option (String × List Int)
  | .number x => (Decimal.place? x).map ("number", ·)
  | .text s => some ("text", s.toList.map fun c => (c.toNat : Int))
  | .date d => some ("date", [d.seconds, (d.nanos : Int)])
  | _ => none

/-- Texts compare by their code points, by induction on the first of them. -/
theorem compare_codes (left right : List Char)
    : (if left < right then Ordering.lt else if left = right then .eq else .gt)
      = compare (left.map fun c => (c.toNat : Int)) (right.map fun c => (c.toNat : Int)) := by
  induction left generalizing right with
  | nil =>
      cases right with
      | nil => rfl
      | cons d right => simp
  | cons c left ih =>
      cases right with
      | nil => simp
      | cons d right =>
          rw [List.map_cons, List.map_cons, List.compare_cons_cons, ← ih, compare_natCast]
          simp only [List.cons_lt_cons_iff, List.cons.injEq]
          rcases lt_trichotomy c.toNat d.toNat with less | same | greater
          · rw [Nat.compare_eq_lt.mpr less, if_pos (.inl less)]
            rfl
          · obtain rfl := Char.toNat_inj.mp same
            simp
          · have notLess : ¬c < d := Nat.lt_asymm greater
            have notSame : c ≠ d := by
              rintro rfl
              exact Nat.lt_irrefl _ greater
            simp [Nat.compare_eq_gt.mpr greater, notLess, notSame]

theorem codes_lt_iff (left right : List Char)
    : left.map Char.toNat < right.map Char.toNat ↔ left < right := by
  induction left generalizing right with
  | nil => cases right <;> simp
  | cons c left ih =>
      cases right with
      | nil => simp
      | cons d right =>
          simp only [List.map_cons, List.cons_lt_cons_iff, ih, Char.toNat_inj]
          rfl

theorem orderTexts_eq_lt_iff {s t : String} : Operator.orderTexts s t = .lt ↔ s < t := by
  rw [Operator.orderTexts]
  split_ifs with less same <;> simp [less]

theorem orderTexts_eq_eq_iff {s t : String} : Operator.orderTexts s t = .eq ↔ s = t := by
  rw [Operator.orderTexts]
  split_ifs with less same
  · simp [ne_of_lt less]
  · simp [same]
  · simp [same]

theorem orderTexts_eq (s t : String)
    : Operator.orderTexts s t
      = compare (s.toList.map fun c => (c.toNat : Int)) (t.toList.map fun c => (c.toNat : Int)) := by
  rw [← compare_codes, Operator.orderTexts]
  simp only [String.lt_iff_toList_lt, String.toList_inj]

theorem orderNumbers_eq (x y : Float) : Operator.orderNumbers x y = comparison? x y := by
  rw [Operator.orderNumbers]
  have less := @lt_iff_comparison? x y
  have greater := @gt_iff_comparison? x y
  simp only [less, beq_iff_comparison?, greater]
  cases comparison? x y with
  | none => rfl
  | some o => cases o <;> rfl

theorem order_eq (d e : Instant)
    : d.order e = compare [d.seconds, (d.nanos : Int)] [e.seconds, (e.nanos : Int)] := by
  simp [Instant.order, List.compare_cons_cons, compare_natCast]

/-- Two values have an order exactly when they have places among the same kind of values, and it
is that of the places.
-/
theorem order?_eq_some_iff {a b : Value} {o : Ordering}
    : Operator.order? a b = some o
      ↔ ∃ kind p q,
          a.place? = some (kind, p) ∧ b.place? = some (kind, q) ∧ compare p q = o := by
  cases a <;> cases b <;>
    simp [Operator.order?, Value.place?, orderNumbers_eq, comparison?_eq_some_iff, orderTexts_eq,
      order_eq]

-----------------------------------------------------------------------------------------
-- The operators
-----------------------------------------------------------------------------------------

namespace Operator

/-- The operators that compare two values. -/
def comparisons : List Operator :=
  [equals, notEquals, greaterThan, lessThan, greaterThanOrEqual, lessThanOrEqual]

/-- An operator is true of two values. -/
def Holds (op : Operator) (a b : Value) : Prop :=
  op.apply a b = .bool true

/-- The orders of two values of which an operator is true. -/
def accepts : Operator → Ordering → Bool
  | equals => Ordering.isEq
  | notEquals => Ordering.isNe
  | greaterThan => Ordering.isGT
  | lessThan => Ordering.isLT
  | greaterThanOrEqual => Ordering.isGE
  | lessThanOrEqual => Ordering.isLE
  | _ => fun _ => false

theorem apply_comparison {op : Operator} (member : op ∈ comparisons) (a b : Value)
    : op.apply a b = .bool ((order? a b).any op.accepts) := by
  simp only [comparisons, List.mem_cons, List.not_mem_nil, or_false] at member
  rcases member with rfl | rfl | rfl | rfl | rfl | rfl <;> rfl

theorem holds_iff {op : Operator} (member : op ∈ comparisons) {a b : Value}
    : op.Holds a b ↔ ∃ o, order? a b = some o ∧ op.accepts o = true := by
  rw [Holds, apply_comparison member, Value.bool.injEq, Option.any_eq_true]

/-- What one operator accepts or another one does. -/
theorem holds_iff_or {op first second : Operator} (member : op ∈ comparisons)
    (firstMember : first ∈ comparisons) (secondMember : second ∈ comparisons)
    (either : ∀ o, op.accepts o = (first.accepts o || second.accepts o)) {a b : Value}
    : op.Holds a b ↔ first.Holds a b ∨ second.Holds a b := by
  rw [holds_iff member, holds_iff firstMember, holds_iff secondMember]
  simp only [either, Bool.or_eq_true, and_or_left, exists_or]

theorem holds_lessThan_iff {a b : Value} : lessThan.Holds a b ↔ order? a b = some .lt := by
  rw [holds_iff (by decide)]
  simp [accepts, Ordering.isLT_iff_eq_lt]

theorem holds_equals_iff {a b : Value} : equals.Holds a b ↔ order? a b = some .eq := by
  rw [holds_iff (by decide)]
  simp [accepts, Ordering.isEq_iff_eq_eq]

theorem holds_greaterThan_iff {a b : Value} : greaterThan.Holds a b ↔ order? a b = some .gt := by
  rw [holds_iff (by decide)]
  simp [accepts, Ordering.isGT_iff_eq_gt]

end Operator

-----------------------------------------------------------------------------------------
-- Laws of the order
-----------------------------------------------------------------------------------------

/-- Two values that can be compared: of one kind that has an order, and not NaN. -/
inductive Comparable : Value → Value → Prop where
  | numbers {x y : Float} (left : x.isNaN = false) (right : y.isNaN = false)
    : Comparable (.number x) (.number y)
  | texts (s t : String) : Comparable (.text s) (.text t)
  | dates (d e : Instant) : Comparable (.date d) (.date e)

section Laws

variable {a b c : Value}

theorem comparable_iff : Comparable a b ↔ ∃ o, Operator.order? a b = some o := by
  constructor
  · intro comparable
    cases comparable with
    | @numbers x y left right =>
        obtain ⟨p, leftPlace⟩ := isNaN_eq_false_iff.mp left
        obtain ⟨q, rightPlace⟩ := isNaN_eq_false_iff.mp right
        exact ⟨_, (orderNumbers_eq x y).trans
          (comparison?_eq_some_iff.mpr ⟨p, q, leftPlace, rightPlace, rfl⟩)⟩
    | texts s t => exact ⟨_, rfl⟩
    | dates d e => exact ⟨_, rfl⟩
  · rintro ⟨o, order⟩
    cases a <;> cases b <;> try cases order
    · next x y =>
        obtain ⟨p, q, left, right, -⟩ :=
          comparison?_eq_some_iff.mp ((orderNumbers_eq x y).symm.trans order)
        exact .numbers (isNaN_eq_false_iff.mpr ⟨p, left⟩) (isNaN_eq_false_iff.mpr ⟨q, right⟩)
    · exact .texts _ _
    · exact .dates _ _

theorem order?_swap {o : Ordering}
    : Operator.order? a b = some o ↔ Operator.order? b a = some o.swap := by
  rw [order?_eq_some_iff, order?_eq_some_iff]
  refine exists_congr fun kind => ?_
  rw [exists_comm]
  refine exists_congr fun p => exists_congr fun q => ?_
  rw [and_left_comm, Std.OrientedOrd.eq_swap, Ordering.swap_eq_iff_eq_swap]

theorem order?_lt_trans (first : Operator.order? a b = some .lt)
    (second : Operator.order? b c = some .lt) : Operator.order? a c = some .lt := by
  obtain ⟨kind, p, q, left, middle, less⟩ := order?_eq_some_iff.mp first
  obtain ⟨kind', q', r, middle', right, less'⟩ := order?_eq_some_iff.mp second
  obtain ⟨rfl, rfl⟩ := Prod.mk.inj (Option.some.inj (middle.symm.trans middle'))
  exact order?_eq_some_iff.mpr ⟨kind, p, r, left, right, Std.TransCmp.lt_trans less less'⟩

/-- Equal values have the same place. -/
theorem place?_eq_of_order? (equal : Operator.order? a b = some .eq) : a.place? = b.place? := by
  obtain ⟨kind, p, q, left, right, same⟩ := order?_eq_some_iff.mp equal
  rw [left, right, Std.LawfulEqOrd.eq_of_compare same]

theorem order?_congr (same : a.place? = b.place?)
    : Operator.order? a c = Operator.order? b c
      ∧ Operator.order? c a = Operator.order? c b := by
  constructor
  · refine Option.ext fun o => ?_
    rw [order?_eq_some_iff, order?_eq_some_iff, same]
  · refine Option.ext fun o => ?_
    rw [order?_eq_some_iff, order?_eq_some_iff, same]

end Laws

/-- What the comparison operators say of three values. -/
structure OneOrder (a b c : Value) : Prop where
  exactlyOne
    : Comparable a b
      → (Operator.lessThan.Holds a b ∧ ¬Operator.equals.Holds a b ∧ ¬Operator.greaterThan.Holds a b)
        ∨ (¬Operator.lessThan.Holds a b ∧ Operator.equals.Holds a b
          ∧ ¬Operator.greaterThan.Holds a b)
        ∨ ¬Operator.lessThan.Holds a b ∧ ¬Operator.equals.Holds a b
          ∧ Operator.greaterThan.Holds a b
  noneElse
    : ¬Comparable a b → ∀ op ∈ Operator.comparisons, op.apply a b = .bool false
  truthValue : ∀ op ∈ Operator.comparisons, ∃ t, op.apply a b = .bool t
  notEquals
    : Operator.notEquals.Holds a b
      ↔ Operator.lessThan.Holds a b ∨ Operator.greaterThan.Holds a b
  greaterThanOrEqual
    : Operator.greaterThanOrEqual.Holds a b
      ↔ Operator.greaterThan.Holds a b ∨ Operator.equals.Holds a b
  lessThanOrEqual
    : Operator.lessThanOrEqual.Holds a b
      ↔ Operator.lessThan.Holds a b ∨ Operator.equals.Holds a b
  swapped : Operator.lessThan.Holds a b ↔ Operator.greaterThan.Holds b a
  symmetric : Operator.equals.Holds a b ↔ Operator.equals.Holds b a
  lessTransitive
    : Operator.lessThan.Holds a b → Operator.lessThan.Holds b c → Operator.lessThan.Holds a c
  equalTransitive
    : Operator.equals.Holds a b → Operator.equals.Holds b c → Operator.equals.Holds a c
  interchangeable
    : Operator.equals.Holds a b
      → ∀ op ∈ Operator.comparisons, op.apply a c = op.apply b c ∧ op.apply c a = op.apply c b

theorem oneOrder (a b c : Value) : OneOrder a b c where
  exactlyOne comparable := by
    obtain ⟨o, order⟩ := comparable_iff.mp comparable
    rw [Operator.holds_lessThan_iff, Operator.holds_equals_iff, Operator.holds_greaterThan_iff,
      order]
    cases o <;> decide
  noneElse incomparable op member := by
    have none : Operator.order? a b = none :=
      Option.eq_none_iff_forall_ne_some.mpr fun o order =>
        incomparable (comparable_iff.mpr ⟨o, order⟩)
    rw [Operator.apply_comparison member, none]
    rfl
  truthValue op member := ⟨_, Operator.apply_comparison member a b⟩
  notEquals :=
    Operator.holds_iff_or (by decide) (by decide) (by decide) fun o => by cases o <;> rfl
  greaterThanOrEqual :=
    Operator.holds_iff_or (by decide) (by decide) (by decide) fun o => by cases o <;> rfl
  lessThanOrEqual :=
    Operator.holds_iff_or (by decide) (by decide) (by decide) fun o => by cases o <;> rfl
  swapped := by
    rw [Operator.holds_lessThan_iff, Operator.holds_greaterThan_iff]
    exact order?_swap
  symmetric := by
    rw [Operator.holds_equals_iff, Operator.holds_equals_iff]
    exact order?_swap
  lessTransitive first second := by
    rw [Operator.holds_lessThan_iff] at first second ⊢
    exact order?_lt_trans first second
  equalTransitive first second := by
    rw [Operator.holds_equals_iff] at first second ⊢
    rwa [(order?_congr (place?_eq_of_order? first)).1]
  interchangeable equal op member := by
    obtain ⟨left, right⟩ :=
      order?_congr (c := c) (place?_eq_of_order? (Operator.holds_equals_iff.mp equal))
    simp only [Operator.apply_comparison member, left, right, and_self]

/-- The comparison operators describe one order on the numbers other than NaN, one on the texts,
which goes by their code points, and one on the dates, which goes by their instants.
-/
theorem comparisons_describe_one_order
    : (∀ a b c : Value, OneOrder a b c)
      ∧ (∀ s t : String,
          (Operator.lessThan.Holds (.text s) (.text t)
            ↔ s.toList.map Char.toNat < t.toList.map Char.toNat)
          ∧ (Operator.equals.Holds (.text s) (.text t) ↔ s = t))
      ∧ ∀ d e : Instant,
          (Operator.lessThan.Holds (.date d) (.date e)
            ↔ d.seconds < e.seconds ∨ d.seconds = e.seconds ∧ d.nanos < e.nanos)
          ∧ (Operator.equals.Holds (.date d) (.date e) ↔ d = e) := by
  refine ⟨oneOrder, fun s t => ⟨?_, ?_⟩, fun d e => ⟨?_, ?_⟩⟩
  · rw [Operator.holds_lessThan_iff, Operator.order?, Option.some_inj, orderTexts_eq_lt_iff,
      codes_lt_iff, String.lt_iff_toList_lt]
  · rw [Operator.holds_equals_iff, Operator.order?, Option.some_inj, orderTexts_eq_eq_iff]
  · rw [Operator.holds_lessThan_iff, Operator.order?, Option.some_inj, Instant.order_eq_lt_iff]
  · rw [Operator.holds_equals_iff, Operator.order?, Option.some_inj, Instant.order_eq_eq_iff]

end RowFormula
