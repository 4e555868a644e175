import Mathlib

/-! The order of doubles. Each double other than NaN has a place, and two doubles compare as their
places do, so that their order is a total preorder.
-/

namespace RowFormula.Decimal

open Float.Model UnpackedFloat

theorem compare_neg (a b : Int) : compare (-a) (-b) = (compare a b).swap := by
  rw [Int.compare_eq_ite_lt, Int.compare_swap, Int.compare_eq_ite_lt]
  simp only [Int.neg_lt_neg_iff]

theorem compare_natCast (a b : Nat) : compare (a : Int) b = compare a b := by
  rw [Int.compare_eq_ite_lt, Nat.compare_eq_ite_lt]
  simp only [Int.ofNat_lt]

/-- The place of an unpacked double: its sign and whether it is infinite, then its exponent, then
its significand. Both zeros have the same place.
-/
def placeOf? : UnpackedFloat → Option (List Int)
  | .notANumber => none
  | .infinity .negative => some [-2]
  | .finite .negative m e _ => some [-1, -e, -m]
  | .zero _ => some [0]
  | .finite .positive m e _ => some [1, e, m]
  | .infinity .positive => some [2]

theorem compare_eq_places (x y : UnpackedFloat)
    : x.compare y = (placeOf? x).bind fun p => (placeOf? y).map (compare p) := by
  cases x with
  | notANumber => cases y <;> rfl
  | infinity s => cases s <;> rcases y with (_ | _) | _ | _ | ⟨_ | _, _, _, _⟩ <;> rfl
  | zero s => rcases y with (_ | _) | _ | _ | ⟨_ | _, _, _, _⟩ <;> rfl
  | finite s m e positive =>
      cases y with
      | notANumber => cases s <;> rfl
      | infinity t => cases s <;> cases t <;> rfl
      | zero t => cases s <;> rfl
      | finite t n f other =>
          cases s with
          | negative =>
              cases t with
              | negative =>
                  simp [placeOf?, UnpackedFloat.compare, compare_neg, compare_natCast,
                    List.compare_cons_cons, Ordering.swap_then]
              | positive => rfl
          | positive =>
              cases t with
              | negative => rfl
              | positive =>
                  simp [placeOf?, UnpackedFloat.compare, compare_natCast, List.compare_cons_cons]

/-- The place of a double in the order of numbers; NaN has none. -/
def place? (x : Float) : Option (List Int) :=
  placeOf? x.toModel.unpack

theorem isNaN_eq_false_iff {x : Float} : x.isNaN = false ↔ ∃ p, place? x = some p := by
  have same : x.isNaN = x.toModel.unpack.isNaN := rfl
  rw [same, place?]
  rcases x.toModel.unpack with (_ | _) | _ | _ | ⟨_ | _, _, _, _⟩ <;>
    simp [placeOf?, UnpackedFloat.isNaN]

/-- How two doubles compare, when neither is NaN. -/
def comparison? (x y : Float) : Option Ordering :=
  (place? x).bind fun p => (place? y).map (compare p)

section Comparison

variable {x y : Float}

theorem comparison?_eq_some_iff {o : Ordering}
    : comparison? x y = some o
      ↔ ∃ p q, place? x = some p ∧ place? y = some q ∧ compare p q = o := by
  simp only [comparison?, Option.bind_eq_some_iff, Option.map_eq_some_iff,
    exists_and_left]

theorem lt_iff_comparison? : x < y ↔ comparison? x y = some .lt := by
  rw [comparison?, place?, place?, ← compare_eq_places]
  change decide (UnpackedFloat.lt _ _ = true) = true ↔ _
  rw [decide_eq_true_eq, UnpackedFloat.lt, beq_iff_eq]

theorem beq_iff_comparison? : (x == y) = true ↔ comparison? x y = some .eq := by
  rw [comparison?, place?, place?, ← compare_eq_places]
  change (UnpackedFloat.compare _ _ == some .eq) = true ↔ _
  rw [beq_iff_eq]

theorem gt_iff_comparison? : y < x ↔ comparison? x y = some .gt := by
  rw [lt_iff_comparison?, comparison?_eq_some_iff, comparison?_eq_some_iff, exists_comm]
  refine exists_congr fun p => exists_congr fun q => ?_
  rw [and_left_comm, Std.OrientedOrd.eq_swap (a := q), Ordering.swap_eq_lt]

end Comparison

end RowFormula.Decimal
