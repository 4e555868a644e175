import Mathlib

/-! Whole numbers as doubles. Below `2 ^ 53` a double holds a whole number exactly, so that
doubles are ordered as the numbers they hold.
-/

namespace RowFormula.Decimal

open Float.Model UnpackedFloat

-----------------------------------------------------------------------------------------
-- Full significands
-----------------------------------------------------------------------------------------

/-- A significand of exactly 53 bits. -/
structure Full (significand : Nat) : Prop where
  lower : 2 ^ 52 ≤ significand
  upper : significand < 2 ^ 53

namespace Full

variable {m k : Nat} {e : Int} {s : Sign} (full : Full m)

include full

theorem pos : 0 < m := by
  have lower := full.lower
  omega

theorem log2_scaled (k : Nat) : (m * 2 ^ k).log2 = 52 + k := by
  have positive : m * 2 ^ k ≠ 0 := (Nat.mul_pos full.pos (Nat.two_pow_pos k)).ne'
  apply (Nat.log2_eq_iff positive).mpr
  have lower := Nat.mul_le_mul_right (2 ^ k) full.lower
  have upper := Nat.mul_lt_mul_of_pos_right full.upper (Nat.two_pow_pos k)
  rw [← Nat.pow_add] at lower upper
  rw [Nat.add_right_comm]
  exact ⟨lower, upper⟩

/-- The exponent of a full significand is kept, whatever zero bits follow it. -/
theorem targetExponent_scaled (least : -1074 ≤ e)
    : Format.binary64.targetExponent (totalExponent (m * 2 ^ k) (e - k)) = e := by
  simp only [Format.targetExponent, totalExponent, full.log2_scaled, Format.mantissaBits,
    Format.minExponent]
  omega

end Full

/-- The leading bit of a significand stands above its 52 stored bits. -/
theorem toNat_leading_append (stored : BitVec 52)
    : (1#1 ++ stored).toNat = stored.toNat + 2 ^ 52 := by
  rw [BitVec.toNat_append, ← Nat.shiftLeft_add_eq_or_of_lt stored.isLt, Nat.shiftLeft_eq,
    Nat.add_comm]
  rfl

/-- Zero bits that are shifted out leave no remainder, by induction on their number. -/
theorem shiftRight_scaled (m k : Nat)
    : ExtendedMantissa.ofMantissaAndAccuracy (m * 2 ^ k) .exact >>> k
      = ExtendedMantissa.ofMantissaAndAccuracy m .exact := by
  change Nat.repeat ExtendedMantissa.shiftRightOne k _ = _
  induction k generalizing m with
  | zero => simp [Nat.repeat]
  | succ k ih =>
      have even : m * 2 ^ (k + 1) = m * 2 * 2 ^ k := by ring
      rw [Nat.repeat, even, ih]
      simp [ExtendedMantissa.ofMantissaAndAccuracy, ExtendedMantissa.shiftRightOne]

namespace Full

variable {m : Nat} {e : Int} {s : Sign} (full : Full m)

include full

/-- Zero bits after a full significand are shifted out, and nothing else is. -/
theorem shift_scaled (k : Nat) (least : -1074 ≤ e)
    : shiftToTargetExponent Format.binary64 (m * 2 ^ k) (e - k) .exact
      = (.ofMantissaAndAccuracy m .exact, e) := by
  have amount : (e - (e - (k : Int))).toNat = k := by omega
  simp only [shiftToTargetExponent, full.targetExponent_scaled least, shiftToExponent, amount,
    shiftRight_scaled]
  rw [Int.sub_add_cancel]

theorem shift_full (least : -1074 ≤ e)
    : shiftToTargetExponent Format.binary64 m e .exact = (.ofMantissaAndAccuracy m .exact, e) := by
  have none := full.shift_scaled 0 least
  rwa [pow_zero, mul_one, Nat.cast_zero, sub_zero] at none

/-- Rounding shifts, rounds what is left, and shifts once more. -/
theorem round_of_shift {n : Nat} {start between : Int} {extended : ExtendedMantissa}
    (first
      : shiftToTargetExponent Format.binary64 n start .exact = (extended, between))
    (second
      : shiftToTargetExponent Format.binary64 extended.roundedMantissa between .exact
        = (.ofMantissaAndAccuracy m .exact, e))
    : roundWithAccuracy Format.binary64 s n start .exact = .finite s m e full.pos := by
  simp only [roundWithAccuracy, first, second]
  exact dif_neg full.pos.ne'

/-- Rounding drops the zero bits after a full significand and changes nothing else. -/
theorem round_scaled (k : Nat) (least : -1074 ≤ e)
    : roundWithAccuracy Format.binary64 s (m * 2 ^ k) (e - k) .exact
      = .finite s m e full.pos :=
  full.round_of_shift (full.shift_scaled k least) (full.shift_full least)

/-- A full significand has its leading bit above the 52 bits of the fraction field. -/
theorem append_fraction : (1#1 ++ BitVec.ofNat 52 m).toNat = m := by
  obtain ⟨lower, upper⟩ := full
  rw [toNat_leading_append, BitVec.toNat_ofNat]
  omega

/-- A full significand and its exponent survive being stored in the fields of a double. -/
theorem unpack_pack (least : -1074 ≤ e) (most : e ≤ 971)
    : (Float.Model.pack (.finite s m e full.pos)).unpack = .finite s m e full.pos := by
  have field : (BitVec.ofNat 11 (e + 1023 + 52).toNat).toNat = (e + 1023 + 52).toNat := by
    rw [BitVec.toNat_ofNat]
    omega
  have notAll : BitVec.ofNat 11 (e + 1023 + 52).toNat ≠ -1#11 := by
    intro all
    have same := congrArg BitVec.toNat all
    rw [field] at same
    change (e + 1023 + 52).toNat = 2047 at same
    omega
  have notZero : BitVec.ofNat 11 (e + 1023 + 52).toNat ≠ 0#11 := by
    intro zero
    have same := congrArg BitVec.toNat zero
    rw [field] at same
    change (e + 1023 + 52).toNat = 0 at same
    omega
  have log2 : m.log2 + 1 = 53 := by
    have log2 := full.log2_scaled 0
    rw [pow_zero, mul_one] at log2
    rw [log2]
  have stored
      : UnpackedFloat.pack Format.binary64 (.finite s m e full.pos)
        = packComponents Format.binary64 s (BitVec.ofNat 11 (e + 1023 + 52).toNat)
            (BitVec.ofNat 52 m) := by
    have fits : ¬2 ^ 11 ≤ (e + 1023 + 52).toNat + 1 := by omega
    simp only [UnpackedFloat.pack]
    exact (if_neg fits).trans (if_pos log2)
  change UnpackedFloat.unpack Format.binary64 (UnpackedFloat.pack Format.binary64 _) = _
  rw [stored]
  simp only [UnpackedFloat.unpack, unpackExponent_packComponents, unpackMantissa_packComponents,
    unpackSign_packComponents]
  rw [if_neg notAll, if_neg notZero]
  have exponent : (((e + 1023 + 52).toNat : Int) - (1023 + 52)) = e := by omega
  congr 1
  · cases s <;> rfl
  · exact full.append_fraction
  · rw [field]
    exact exponent

end Full

-----------------------------------------------------------------------------------------
-- Doubles that hold whole numbers
-----------------------------------------------------------------------------------------

/-- A double holds a whole number: the significand of a number other than zero is filled up
with zero bits.
-/
inductive Holds : UnpackedFloat → Int → Prop where
  | zero (s : Sign) : Holds (.zero s) 0
  | scaled (s : Sign) {n k : Nat} (full : Full (n * 2 ^ k)) (short : k ≤ 52)
    : Holds (.finite s (n * 2 ^ k) (-k) full.pos) (s.apply n)

/-- Whole numbers compare as their exponents do and then as their significands: the number with
more zero bits after it is the smaller one.
-/
theorem Full.compare_scaled {a b j k : Nat} (left : Full (a * 2 ^ j)) (right : Full (b * 2 ^ k))
    : (compare (-j : Int) (-k)).then (compare (a * 2 ^ j) (b * 2 ^ k)) = compare a b := by
  have smaller {a b j k : Nat} (left : Full (a * 2 ^ j)) (right : Full (b * 2 ^ k)) (more : k < j)
      : a < b := by
    have twice : b * 2 ^ k * 2 ≤ b * 2 ^ j := by
      rw [Nat.mul_assoc, ← Nat.pow_succ]
      exact Nat.mul_le_mul_left b (Nat.pow_le_pow_right (by omega) more)
    have upper := left.upper
    have lower := right.lower
    exact Nat.lt_of_mul_lt_mul_right (a := 2 ^ j) (by omega)
  rcases Nat.lt_trichotomy j k with fewer | rfl | more
  · have greater : compare (-j : Int) (-k) = .gt := Int.compare_eq_gt.mpr (by omega)
    rw [greater, Nat.compare_eq_gt.mpr (smaller right left fewer)]
    rfl
  · rw [Int.compare_eq_eq.mpr rfl, Ordering.eq_then, Nat.compare_eq_ite_lt,
      Nat.compare_eq_ite_lt]
    simp only [Nat.mul_lt_mul_right (Nat.two_pow_pos j)]
  · have less : compare (-j : Int) (-k) = .lt := Int.compare_eq_lt.mpr (by omega)
    rw [less, Nat.compare_eq_lt.mpr (smaller left right more)]
    rfl

theorem Holds.neg {x : UnpackedFloat} {n : Int} (holds : Holds x n) : Holds x.neg (-n) := by
  cases holds with
  | zero s => exact .zero (-s)
  | @scaled s n k full short =>
      have opposite : -s.apply n = (-s).apply n := by
        cases s with
        | positive => rfl
        | negative => exact Int.neg_neg n
      rw [opposite]
      exact .scaled (-s) full short

/-- Doubles that hold whole numbers compare as these do. -/
theorem Holds.compare_eq {x y : UnpackedFloat} {a b : Int} (left : Holds x a) (right : Holds y b)
    : x.compare y = some (compare a b) := by
  cases left with
  | zero s =>
      cases right with
      | zero t => rfl
      | @scaled t b k full _ =>
          have positive : 0 < b := Nat.pos_of_mul_pos_right full.pos
          cases t with
          | positive => exact congrArg some (Int.compare_eq_lt.mpr (by simpa [Sign.apply])).symm
          | negative => exact congrArg some (Int.compare_eq_gt.mpr (by simpa [Sign.apply])).symm
  | @scaled s a j full _ =>
      have positive : 0 < a := Nat.pos_of_mul_pos_right full.pos
      cases right with
      | zero t =>
          cases s with
          | positive => exact congrArg some (Int.compare_eq_gt.mpr (by simpa [Sign.apply])).symm
          | negative => exact congrArg some (Int.compare_eq_lt.mpr (by simpa [Sign.apply])).symm
      | @scaled t b k other _ =>
          have magnitudes := full.compare_scaled other
          have second : 0 < b := Nat.pos_of_mul_pos_right other.pos
          cases s with
          | positive =>
              cases t with
              | positive =>
                  refine congrArg some (magnitudes.trans ?_)
                  simp [Sign.apply, Nat.compare_eq_ite_lt, Int.compare_eq_ite_lt]
              | negative =>
                  refine congrArg some (Int.compare_eq_gt.mpr ?_).symm
                  simp only [Sign.apply]
                  omega
          | negative =>
              cases t with
              | positive =>
                  refine congrArg some (Int.compare_eq_lt.mpr ?_).symm
                  simp only [Sign.apply]
                  omega
              | negative =>
                  refine congrArg some ((congrArg Ordering.swap magnitudes).trans ?_)
                  rw [Nat.compare_swap]
                  simp [Sign.apply, Nat.compare_eq_ite_lt, Int.compare_eq_ite_lt]

-----------------------------------------------------------------------------------------
-- Conversion
-----------------------------------------------------------------------------------------

/-- A number below `2 ^ 53` is filled up with zero bits. -/
theorem full_of_lt {n : Nat} (positive : 0 < n) (small : n < 2 ^ 53)
    : ∃ k, n.log2 + k = 52 ∧ Full (n * 2 ^ k) := by
  have short : n.log2 ≤ 52 := by
    have below := (Nat.log2_lt positive.ne').mpr small
    omega
  refine ⟨52 - n.log2, by omega, ?_⟩
  have lower := Nat.mul_le_mul_right (2 ^ (52 - n.log2)) (Nat.log2_self_le positive.ne')
  have upper := Nat.mul_lt_mul_of_pos_right (Nat.lt_log2_self (n := n))
    (Nat.two_pow_pos (52 - n.log2))
  rw [← Nat.pow_add] at lower upper
  have low : n.log2 + (52 - n.log2) = 52 := by omega
  have high : n.log2 + 1 + (52 - n.log2) = 53 := by omega
  rw [low] at lower
  rw [high] at upper
  exact ⟨lower, upper⟩

theorem Holds.unpack_pack {x : UnpackedFloat} {n : Int} (holds : Holds x n)
    : (Float.Model.pack x).unpack = x := by
  cases holds with
  | zero s => cases s <;> rfl
  | scaled s full short => exact full.unpack_pack (by omega) (by omega)

/-- A word other than zero is converted by rounding it. -/
theorem ofUInt64_eq_round {n : UInt64} (positive : 0 < n.toNat)
    : UnpackedFloat.ofUInt64 Format.binary64 n
      = UnpackedFloat.round Format.binary64 .positive n.toNat 0 := by
  have above : compare (n.toNat : Int) 0 = .gt := Int.compare_eq_gt.mpr (by omega)
  simp only [UnpackedFloat.ofUInt64, UnpackedFloat.ofNat, UnpackedFloat.ofInt,
    UnpackedFloat.normalize, above, Int.toNat_natCast]

/-- A word below `2 ^ 53` is converted without rounding. -/
theorem holds_ofUInt64 {n : UInt64} (small : n.toNat < 2 ^ 53)
    : Holds (UnpackedFloat.ofUInt64 Format.binary64 n) n.toNat := by
  rcases Nat.eq_zero_or_pos n.toNat with zero | positive
  · obtain rfl : n = 0 := UInt64.toNat_inj.mp zero
    exact .zero .positive
  · obtain ⟨k, log2, full⟩ := full_of_lt positive small
    have target : Format.binary64.targetExponent (totalExponent n.toNat 0) = -(k : Int) := by
      simp only [Format.targetExponent, totalExponent, Format.mantissaBits, Format.minExponent]
      omega
    have rounded := full.round_scaled (s := .positive) (e := -k) 0 (by omega)
    have converted
        : UnpackedFloat.ofUInt64 Format.binary64 n
          = .finite .positive (n.toNat * 2 ^ k) (-k) full.pos := by
      rw [ofUInt64_eq_round positive]
      simp only [UnpackedFloat.round, target, UnpackedFloat.decreaseExponent, zero_sub, neg_neg,
        Nat.shiftLeft_eq]
      simpa using rounded
    rw [converted]
    exact .scaled .positive full (by omega)

/-- The double one, as a significand and an exponent. -/
theorem unpack_one
    : Float.exactlyRepresentablePowersOfTen[0].toModel.unpack
      = .finite .positive (2 ^ 52) (-52) (by decide) :=
  rfl

/-- What holds a whole number is not changed by a multiplication with one. -/
theorem Holds.mul_one {x : UnpackedFloat} {n : Int} (holds : Holds x n)
    : UnpackedFloat.mul Format.binary64 x (.finite .positive (2 ^ 52) (-52) (by decide)) = x := by
  cases holds with
  | zero s => cases s <;> rfl
  | @scaled s n k full short =>
      have sign : s * .positive = s := by cases s <;> rfl
      have rounded := full.round_scaled (s := s) (e := -k) 52 (by omega)
      simp only [UnpackedFloat.mul, sign]
      exact rounded

/-- A number below `2 ^ 53` is converted without rounding. -/
theorem holds_ofNat {n : Nat} (small : n < 2 ^ 53) : Holds (Float.ofNat n).toModel.unpack n := by
  have word : n.toUInt64.toNat = n := by
    have fits : n < UInt64.size := by
      simp only [UInt64.size]
      omega
    exact UInt64.toNat_ofNat_of_lt' fits
  have converted := holds_ofUInt64 (n := n.toUInt64) (by rwa [word])
  have exact : Float.ofNat n = n.toUInt64.toFloat * Float.exactlyRepresentablePowersOfTen[0] :=
    dif_pos ⟨small, by decide⟩
  have product
      : (Float.ofNat n).toModel.unpack = UnpackedFloat.ofUInt64 Format.binary64 n.toUInt64 := by
    rw [exact]
    change (Float.Model.pack (UnpackedFloat.mul Format.binary64
      (Float.Model.pack (UnpackedFloat.ofUInt64 Format.binary64 n.toUInt64)).unpack _)).unpack = _
    rw [converted.unpack_pack, unpack_one, converted.mul_one, converted.unpack_pack]
  rw [product]
  simpa only [word] using converted

theorem holds_ofInt {n : Int} (small : n.natAbs < 2 ^ 53)
    : Holds (Float.ofInt n).toModel.unpack n := by
  cases n with
  | ofNat n => exact holds_ofNat small
  | negSucc n =>
      have opposite := (holds_ofNat (n := n + 1) small).neg
      have stored
          : (Float.ofInt (.negSucc n)).toModel.unpack
            = (Float.ofNat (n + 1)).toModel.unpack.neg :=
        opposite.unpack_pack
      rw [stored]
      exact opposite

/-- Whole numbers of magnitude below `2 ^ 53` keep their order as doubles. -/
theorem ofInt_lt_iff {a b : Int} (left : a.natAbs < 2 ^ 53) (right : b.natAbs < 2 ^ 53)
    : Float.ofInt a < Float.ofInt b ↔ a < b := by
  have order := (holds_ofInt left).compare_eq (holds_ofInt right)
  change decide (UnpackedFloat.lt _ _ = true) = true ↔ _
  simp only [UnpackedFloat.lt, order, ← Int.compare_eq_lt]
  simp

end RowFormula.Decimal
