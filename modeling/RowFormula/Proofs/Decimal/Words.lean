import RowFormula.Decimal.Word
import RowFormula.Proofs.Decimal.Decoding

/-! Whole numbers that pass through doubles and words. Below `2 ^ 53` they are kept, and from
there on they may be rounded or cut off, but stay as large as that.
-/

namespace RowFormula.Decimal

open Float.Model UnpackedFloat

-----------------------------------------------------------------------------------------
-- Long significands
-----------------------------------------------------------------------------------------

theorem mantissa_shiftRight (extended : ExtendedMantissa) (k : Nat)
    : (extended >>> k).mantissa = extended.mantissa / 2 ^ k := by
  change (Nat.repeat ExtendedMantissa.shiftRightOne k extended).mantissa = _
  induction k with
  | zero => rw [Nat.repeat, pow_zero, Nat.div_one]
  | succ k ih =>
      rw [Nat.repeat, ExtendedMantissa.shiftRightOne, ih, Nat.div_div_eq_div_mul, pow_succ]

/-- Rounding keeps a significand or makes it greater by one. -/
theorem roundedMantissa_bounds (extended : ExtendedMantissa)
    : extended.mantissa ≤ extended.roundedMantissa
      ∧ extended.roundedMantissa ≤ extended.mantissa + 1 := by
  obtain ⟨mantissa, half, rest⟩ := extended
  cases half <;> cases rest <;>
    simp only [ExtendedMantissa.roundedMantissa, ExtendedMantissa.accuracy,
      Accuracy.roundToNearestEven] <;> omega

/-- A number of more than 53 bits is cut to 53 of them. -/
theorem full_div {n k : Nat} (log2 : n.log2 = 52 + k) : Full (n / 2 ^ k) := by
  have positive : n ≠ 0 := by
    rintro rfl
    exact absurd log2 (by rw [Nat.log2_zero]; omega)
  have lower := Nat.log2_self_le positive
  have upper := Nat.lt_log2_self (n := n)
  rw [log2] at lower upper
  constructor
  · rw [Nat.le_div_iff_mul_le (Nat.two_pow_pos k), ← pow_add]
    exact lower
  · rw [Nat.div_lt_iff_lt_mul (Nat.two_pow_pos k), ← pow_add, Nat.add_right_comm 52 1]
    exact upper

section Long

variable {n k : Nat} (log2 : n.log2 = 52 + k)

include log2

theorem targetExponent_long : Format.binary64.targetExponent (totalExponent n 0) = k := by
  simp only [Format.targetExponent, totalExponent, Format.mantissaBits, Format.minExponent]
  omega

theorem shift_long
    : shiftToTargetExponent Format.binary64 n 0 .exact
      = (ExtendedMantissa.ofMantissaAndAccuracy n .exact >>> k, (k : Int)) := by
  have amount : ((k : Int) - 0).toNat = k := by omega
  simp only [shiftToTargetExponent, targetExponent_long log2, shiftToExponent, amount, zero_add]

theorem round_eq_of_long (s : Sign)
    : UnpackedFloat.round Format.binary64 s n 0
      = roundWithAccuracy Format.binary64 s n 0 .exact := by
  have unshifted : (0 - (k : Int)).toNat = 0 := by omega
  simp only [UnpackedFloat.round, targetExponent_long log2, UnpackedFloat.decreaseExponent,
    unshifted, Nat.shiftLeft_zero, Nat.cast_zero, sub_zero]

/-- A number of more than 53 bits is rounded to a full significand. When rounding up gives
`2 ^ 53`, the exponent is one more.
-/
theorem round_long (s : Sign)
    : ∃ (m j : Nat) (full : Full m),
        UnpackedFloat.round Format.binary64 s n 0 = .finite s m j full.pos
        ∧ k ≤ j
        ∧ j ≤ k + 1 := by
  rw [round_eq_of_long log2 s]
  have shifted := shift_long log2
  obtain ⟨lower, upper⟩ := full_div log2
  have cut
      : (ExtendedMantissa.ofMantissaAndAccuracy n .exact >>> k).mantissa = n / 2 ^ k :=
    mantissa_shiftRight _ k
  have bounds := roundedMantissa_bounds (ExtendedMantissa.ofMantissaAndAccuracy n .exact >>> k)
  rw [cut] at bounds
  by_cases short
      : (ExtendedMantissa.ofMantissaAndAccuracy n .exact >>> k).roundedMantissa < 2 ^ 53
  · have full : Full (ExtendedMantissa.ofMantissaAndAccuracy n .exact >>> k).roundedMantissa :=
      ⟨by omega, short⟩
    have again := full.shift_full (e := k) (by omega)
    exact ⟨_, k, full, full.round_of_shift shifted again, le_refl k, Nat.le_succ k⟩
  · have full : Full (2 ^ 52) := ⟨le_refl _, by decide⟩
    have carried
        : (ExtendedMantissa.ofMantissaAndAccuracy n .exact >>> k).roundedMantissa
          = 2 ^ 52 * 2 ^ 1 := by
      omega
    have again := full.shift_scaled 1 (e := k + 1) (by omega)
    rw [← carried, Nat.cast_one, add_sub_cancel_right] at again
    exact ⟨_, k + 1, full, full.round_of_shift shifted again, Nat.le_succ k, le_refl _⟩

end Long

-----------------------------------------------------------------------------------------
-- Rounded whole numbers
-----------------------------------------------------------------------------------------

/-- A whole number and what is left of it in a double or a word. -/
def Rounded (n r : Int) : Prop :=
  n = r ∨ 2 ^ 53 ≤ n.natAbs ∧ 2 ^ 53 ≤ r.natAbs

theorem Rounded.neg {n r : Int} (rounded : Rounded n r) : Rounded (-n) (-r) := by
  rcases rounded with rfl | ⟨large, stillLarge⟩
  · exact .inl rfl
  · exact .inr ⟨by rwa [Int.natAbs_neg], by rwa [Int.natAbs_neg]⟩

theorem Rounded.trans {n r t : Int} (first : Rounded n r) (second : Rounded r t)
    : Rounded n t := by
  rcases first with rfl | ⟨large, between⟩
  · exact second
  · rcases second with rfl | ⟨-, stillLarge⟩
    · exact .inr ⟨large, between⟩
    · exact .inr ⟨large, stillLarge⟩

/-- The cast to a word cuts off what no word can hold. -/
theorem rounded_ofIntClamp (n : Int) : Rounded n (Int64.ofIntClamp n).toInt := by
  have least : Int64.minValue.toInt = -2 ^ 63 := rfl
  have most : Int64.maxValue.toInt = 2 ^ 63 - 1 := rfl
  simp only [Int64.ofIntClamp]
  split
  · next notLess =>
      split
      · next notMore => exact .inl Int64.toInt_ofIntLE.symm
      · next more => exact .inr ⟨by omega, by rw [most]; decide⟩
  · next less => exact .inr ⟨by omega, by rw [least]; decide⟩

/-- The integer part of a double that holds a whole number. -/
theorem Holds.wholePart {x : UnpackedFloat} {n : Int} (holds : Holds x n)
    : (Binary.ofUnpacked? x).map Binary.wholePart = some n := by
  cases holds with
  | zero s =>
      have magnitude (negative : Bool) : Binary.wholeMagnitude ⟨negative, 0, -1074⟩ = 0 := by
        simp only [Binary.wholeMagnitude, Nat.zero_mul, Nat.zero_div]
      cases s with
      | positive => exact congrArg (fun n : Nat => some (n : Int)) (magnitude false)
      | negative => exact congrArg (fun n : Nat => some (-(n : Int))) (magnitude true)
  | @scaled s n k full short =>
      have magnitude (negative : Bool)
          : Binary.wholeMagnitude ⟨negative, n * 2 ^ k, -k⟩ = n := by
        simp only [Binary.wholeMagnitude, Int.neg_neg, Int.toNat_neg_natCast, Int.toNat_natCast,
          Nat.pow_eq, Nat.pow_zero, Nat.mul_one]
        exact Nat.mul_div_cancel n (Nat.two_pow_pos k)
      cases s with
      | positive => exact congrArg (fun n : Nat => some (n : Int)) (magnitude false)
      | negative => exact congrArg (fun n : Nat => some (-(n : Int))) (magnitude true)

/-- A word from `2 ^ 53` on is rounded to an even number. -/
theorem unpack_toFloat_of_large {n : UInt64} (large : 2 ^ 53 ≤ n.toNat)
    : ∃ (m j : Nat) (full : Full m),
        n.toFloat.toModel.unpack = .finite .positive m j full.pos ∧ 1 ≤ j := by
  have below : n.toNat.log2 < 64 := (Nat.log2_lt (by omega)).mpr n.toNat_lt
  have above : 53 ≤ n.toNat.log2 := (Nat.le_log2 (by omega)).mpr large
  obtain ⟨m, j, full, rounded, notLess, notMore⟩ :=
    round_long (k := n.toNat.log2 - 52) (show n.toNat.log2 = _ by omega) .positive
  have converted
      : UnpackedFloat.ofUInt64 Format.binary64 n = .finite .positive m j full.pos :=
    (ofUInt64_eq_round (by omega)).trans rounded
  have canonical : Canonical (UnpackedFloat.ofUInt64 Format.binary64 n) := by
    rw [converted]
    exact .normal .positive full (by omega) (by omega)
  exact ⟨m, j, full, canonical.unpack_pack.trans converted, by omega⟩

theorem rounded_toFloat (n : UInt64)
    : ∃ r, wholePart? n.toFloat = some r ∧ Rounded n.toNat r := by
  rw [wholePart?, Binary.ofFloat?_eq]
  rcases Nat.lt_or_ge n.toNat (2 ^ 53) with small | large
  · have holds := holds_ofUInt64 small
    have unpacked : n.toFloat.toModel.unpack = _ := holds.unpack_pack
    rw [unpacked, holds.wholePart]
    exact ⟨_, rfl, .inl rfl⟩
  · obtain ⟨m, j, full, unpacked, even⟩ := unpack_toFloat_of_large large
    rw [unpacked]
    refine ⟨_, rfl, .inr ⟨large, ?_⟩⟩
    have magnitude : Binary.wholeMagnitude ⟨false, m, j⟩ = m * 2 ^ j := by
      simp only [Binary.wholeMagnitude, Int.toNat_natCast, Int.toNat_neg_natCast, Nat.pow_eq,
        Nat.pow_zero, Nat.div_one]
    change 2 ^ 53 ≤ Binary.wholeMagnitude ⟨false, m, j⟩
    rw [magnitude]
    calc
      2 ^ 53 = 2 ^ 52 * 2 ^ 1 := rfl
      _ ≤ m * 2 ^ j := Nat.mul_le_mul full.lower (Nat.pow_le_pow_right (by decide) even)

/-- A word becomes a finite double. -/
theorem rounded_ofWord (n : Int64)
    : ∃ r, wholePart? (ofWord n) = some r ∧ Rounded n.toInt r := by
  have least := n.le_toInt
  have most := n.toInt_lt
  have word : n.toInt.natAbs.toUInt64.toNat = n.toInt.natAbs :=
    UInt64.toNat_ofNat_of_lt' (by simp only [UInt64.size]; omega)
  obtain ⟨r, whole, rounded⟩ := rounded_toFloat n.toInt.natAbs.toUInt64
  rw [word] at rounded
  by_cases negative : n < 0
  · have below : n.toInt < 0 := Int64.lt_iff_toInt_lt.mp negative
    refine ⟨-r, ?_, ?_⟩
    · rw [ofWord, signed, if_pos (decide_eq_true negative), wholePart?_neg, whole]
      rfl
    · have opposite : n.toInt = -(n.toInt.natAbs : Int) := by omega
      rw [opposite]
      exact rounded.neg
  · have above : ¬n.toInt < 0 := fun below => negative (Int64.lt_iff_toInt_lt.mpr below)
    refine ⟨r, ?_, ?_⟩
    · rw [ofWord, signed, if_neg (by simpa using negative), whole]
    · have same : n.toInt = (n.toInt.natAbs : Int) := by omega
      rw [same]
      exact rounded

end RowFormula.Decimal
