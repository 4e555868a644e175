import RowFormula.Proofs.Decimal.Decoding

/-! The integer part of a double is that of the exact number for which the double stands. -/

namespace RowFormula.Decimal

/-- The exact value of a decoded double. -/
def Binary.toRat (b : Binary) : ℚ :=
  (if b.negative then -1 else 1) * (b.significand * 2 ^ b.exponent)

/-- A whole number is what is left of a number without its fraction. -/
def IsTruncation (q : ℚ) (n : Int) : Prop :=
  |(n : ℚ)| ≤ |q| ∧ |q - n| < 1

theorem IsTruncation.neg {q : ℚ} {n : Int} (cut : IsTruncation q n) : IsTruncation (-q) (-n) := by
  obtain ⟨toward, near⟩ := cut
  constructor
  · rwa [Int.cast_neg, abs_neg, abs_neg]
  · rwa [Int.cast_neg, sub_neg_eq_add, neg_add_eq_sub, abs_sub_comm]

theorem isTruncation_of_nonneg {q : ℚ} {n : Nat} (below : n ≤ q) (above : q < n + 1)
    : IsTruncation q n := by
  have nonneg : (0 : ℚ) ≤ n := Nat.cast_nonneg n
  rw [IsTruncation, Int.cast_natCast, abs_of_nonneg nonneg, abs_of_nonneg (nonneg.trans below),
    abs_lt]
  exact ⟨below, by linarith, by linarith⟩

/-- There is only one way to drop a fraction. -/
theorem IsTruncation.unique {q : ℚ} {n k : Int} (first : IsTruncation q n)
    (second : IsTruncation q k) : n = k := by
  have greater {n k : Int} (first : IsTruncation q n) (second : IsTruncation q k) : ¬n < k := by
    intro less
    obtain ⟨firstToward, firstNear⟩ := first
    obtain ⟨secondToward, secondNear⟩ := second
    have next : (n : ℚ) + 1 ≤ k := by exact_mod_cast less
    have above := (abs_lt.mp secondNear).1
    have below := (abs_lt.mp firstNear).2
    -- The number lies between the two, and one of them is farther from zero than it is.
    rcases lt_or_ge 0 k with positive | notPositive
    · have one : (1 : ℚ) ≤ k := by exact_mod_cast positive
      rw [abs_of_nonneg (by linarith), abs_of_nonneg (by linarith)] at secondToward
      linarith
    · have zero : (k : ℚ) ≤ 0 := by exact_mod_cast notPositive
      rw [abs_of_nonpos (by linarith), abs_of_nonpos (by linarith)] at firstToward
      linarith
  exact le_antisymm (not_lt.mp (greater second first)) (not_lt.mp (greater first second))

theorem Binary.wholeMagnitude_bounds (b : Binary)
    : (b.wholeMagnitude : ℚ) ≤ b.significand * 2 ^ b.exponent
      ∧ b.significand * (2 : ℚ) ^ b.exponent < b.wholeMagnitude + 1 := by
  obtain ⟨negative, m, e⟩ := b
  have scaled : (m : ℚ) * 2 ^ e = (m * 2 ^ e.toNat : Nat) / (2 ^ (-e).toNat : Nat) := by
    have sides : e = (e.toNat : Int) - ((-e).toNat : Int) := by omega
    conv_lhs => rw [sides, zpow_sub₀ two_ne_zero, zpow_natCast, zpow_natCast]
    push_cast
    ring
  simp only [wholeMagnitude, Nat.pow_eq, scaled]
  have positive : (0 : ℚ) < (2 ^ (-e).toNat : Nat) := by positivity
  constructor
  · exact Nat.cast_div_le
  · rw [div_lt_iff₀ positive]
    exact_mod_cast Nat.lt_mul_of_div_lt (Nat.lt_succ_self _) (by positivity)

theorem Binary.isTruncation_wholePart (b : Binary) : IsTruncation b.toRat b.wholePart := by
  have magnitude := isTruncation_of_nonneg b.wholeMagnitude_bounds.1 b.wholeMagnitude_bounds.2
  rw [toRat, wholePart]
  cases b.negative with
  | true => simpa using magnitude.neg
  | false => simpa using magnitude

/-- The integer part of a finite double: what is left of its exact value. -/
def IntegerPart (x : Float) (n : Int) : Prop :=
  ∃ b, Binary.ofFloat? x = some b ∧ IsTruncation b.toRat n

theorem integerPart_iff {x : Float} {n : Int} : IntegerPart x n ↔ wholePart? x = some n := by
  rw [wholePart?, Option.map_eq_some_iff]
  refine exists_congr fun b => and_congr_right fun _ => ⟨fun cut => ?_, ?_⟩
  · exact b.isTruncation_wholePart.unique cut
  · rintro rfl
    exact b.isTruncation_wholePart

theorem Binary.isSome_ofUnpacked? (x : Float.Model.UnpackedFloat)
    : (Binary.ofUnpacked? x).isSome = x.isFinite := by
  cases x <;> rfl

/-- Exactly the finite doubles have an integer part. -/
theorem isFinite_iff {x : Float} : x.isFinite = true ↔ ∃ n, wholePart? x = some n := by
  rw [← Option.isSome_iff_exists, wholePart?, Option.isSome_map, Binary.ofFloat?_eq,
    Binary.isSome_ofUnpacked?]
  rfl

end RowFormula.Decimal
