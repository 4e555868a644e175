import RowFormula.Decimal.Binary
import RowFormula.Proofs.Decimal.Whole

/-! Doubles decoded by their fields. The decoding is that of the unpacked double, and it turns
the sign exactly when the double is negated.
-/

namespace RowFormula.Decimal

open Float.Model UnpackedFloat

-----------------------------------------------------------------------------------------
-- Fields
-----------------------------------------------------------------------------------------

section Fields

variable (bits : BitVec 64)

theorem toNat_unpackMantissa
    : (@unpackMantissa Format.binary64 bits).toNat = fractionField bits.toNat := by
  simp only [unpackMantissa, BitVec.toNat_cast, BitVec.extractLsb_toNat, Nat.shiftRight_zero]
  rfl

theorem toNat_unpackExponent
    : (@unpackExponent Format.binary64 bits).toNat = exponentField bits.toNat := by
  simp only [unpackExponent, BitVec.toNat_cast, BitVec.extractLsb_toNat,
    Nat.shiftRight_eq_div_pow]
  rfl

theorem isNegative_unpackSign
    : (Sign.ofBitVec (@unpackSign Format.binary64 bits) == .negative)
      = decide (bits.toNat / Nat.pow 2 63 = 1) := by
  have size := bits.isLt
  have sign : (@unpackSign Format.binary64 bits).toNat = bits.toNat / Nat.pow 2 63 := by
    simp only [unpackSign, BitVec.toNat_cast, BitVec.extractLsb_toNat, Nat.shiftRight_eq_div_pow]
    change bits.toNat / 2 ^ 63 % 2 = bits.toNat / 2 ^ 63
    omega
  rw [← sign]
  generalize @unpackSign Format.binary64 bits = bit
  revert bit
  decide

end Fields

/-- The number that an unpacked double stands for, if it is finite. -/
def Binary.ofUnpacked? : UnpackedFloat → Option Binary
  | .finite s m e _ => some ⟨s == .negative, m, e⟩
  | .zero s => some ⟨s == .negative, 0, -1074⟩
  | _ => none

/-- Decoding a double by its fields gives the number that it is unpacked to. -/
theorem Binary.ofFloat?_eq (x : Float)
    : Binary.ofFloat? x = Binary.ofUnpacked? x.toModel.unpack := by
  have mantissa := toNat_unpackMantissa x.toModel.toBits.toBitVec
  have exponent := toNat_unpackExponent x.toModel.toBits.toBitVec
  have sign := isNegative_unpackSign x.toModel.toBits.toBitVec
  change _ = fractionField x.toBits.toNat at mantissa
  change _ = exponentField x.toBits.toNat at exponent
  change _ = decide (x.toBits.toNat / Nat.pow 2 63 = 1) at sign
  simp only [Binary.ofFloat?, Float.Model.unpack, UnpackedFloat.unpack]
  split
  · next all =>
      rw [if_pos (BitVec.toNat_inj.mp (exponent.trans all : _ = (-1#11).toNat))]
      split <;> rfl
  · next zero =>
      rw [zero] at exponent
      rw [if_neg (fun all => by rw [all] at exponent; exact absurd exponent (by decide)),
        if_pos (BitVec.toNat_inj.mp (exponent : _ = (0#11).toNat)), exponent]
      split
      · next none =>
          rw [none] at mantissa
          rw [← mantissa, Binary.ofUnpacked?, sign]
          rfl
      · rw [Binary.ofUnpacked?, sign, mantissa]
        rfl
  · next notAll notZero =>
      rw [if_neg (fun all => by rw [all] at exponent; exact notAll exponent.symm),
        if_neg (fun zero => by rw [zero] at exponent; exact notZero exponent.symm)]
      have leading := toNat_leading_append
        (@unpackMantissa Format.binary64 x.toModel.toBits.toBitVec)
      rw [mantissa] at leading
      simp only [Binary.ofUnpacked?, sign, leading, exponent]
      rfl

-----------------------------------------------------------------------------------------
-- Canonical forms
-----------------------------------------------------------------------------------------

/-- The forms to which doubles are unpacked. -/
inductive Canonical : UnpackedFloat → Prop where
  | notANumber : Canonical .notANumber
  | infinity (s : Sign) : Canonical (.infinity s)
  | zero (s : Sign) : Canonical (.zero s)
  | normal (s : Sign) {m : Nat} {e : Int} (full : Full m) (least : -1074 ≤ e) (most : e ≤ 971)
    : Canonical (.finite s m e full.pos)
  | subnormal (s : Sign) {m : Nat} (positive : 0 < m) (short : m < 2 ^ 52)
    : Canonical (.finite s m (-1074) positive)

theorem canonical_unpack (x : Float) : Canonical x.toModel.unpack := by
  simp only [Float.Model.unpack, UnpackedFloat.unpack]
  generalize x.toModel.toBits.toBitVec = bits
  split
  · split
    · exact .infinity _
    · exact .notANumber
  · next notAll =>
      split
      · next zero =>
          rw [zero]
          split
          · exact .zero _
          · exact .subnormal _ _ (BitVec.isLt _)
      · next notZero =>
          have short := (@unpackMantissa Format.binary64 bits).isLt
          have leading := toNat_leading_append (@unpackMantissa Format.binary64 bits)
          have full : Full (1#1 ++ @unpackMantissa Format.binary64 bits).toNat := by
            constructor <;> omega
          have size : _ < 2 ^ 11 := (@unpackExponent Format.binary64 bits).isLt
          have fewer : (@unpackExponent Format.binary64 bits).toNat ≠ 2047 :=
            fun all => notAll (BitVec.toNat_inj.mp (all : _ = (-1#11).toNat))
          have more : (@unpackExponent Format.binary64 bits).toNat ≠ 0 :=
            fun zero => notZero (BitVec.toNat_inj.mp (zero : _ = (0#11).toNat))
          have bias : (Format.binary64.exponentBias : Int) + (52 : Nat) = 1075 := rfl
          refine .normal _ full ?_ ?_ <;> omega

namespace Canonical

variable {x : UnpackedFloat} (canonical : Canonical x)

include canonical

theorem neg : Canonical x.neg := by
  cases canonical with
  | notANumber => exact .notANumber
  | infinity s => exact .infinity (-s)
  | zero s => exact .zero (-s)
  | normal s full least most => exact .normal (-s) full least most
  | subnormal s positive short => exact .subnormal (-s) positive short

/-- Nothing is lost when a canonical form is stored in the fields of a double. -/
theorem unpack_pack : (Float.Model.pack x).unpack = x := by
  cases canonical with
  | notANumber => rfl
  | infinity s => cases s <;> rfl
  | zero s => cases s <;> rfl
  | normal s full least most => exact full.unpack_pack least most
  | @subnormal s m positive short =>
      have log2 : m.log2 + 1 ≠ 53 := by
        have below := (Nat.log2_lt positive.ne').mpr short
        omega
      have stored
          : UnpackedFloat.pack Format.binary64 (.finite s m (-1074) positive)
            = packComponents Format.binary64 s 0#11 (BitVec.ofNat 52 m) := by
        simp only [UnpackedFloat.pack]
        exact (if_neg (by decide)).trans (if_neg log2)
      have significand : (BitVec.ofNat 52 m).toNat = m := by
        rw [BitVec.toNat_ofNat]
        exact Nat.mod_eq_of_lt short
      have notZero : BitVec.ofNat 52 m ≠ 0#52 := by
        intro zero
        rw [zero] at significand
        exact positive.ne significand
      change UnpackedFloat.unpack Format.binary64 (UnpackedFloat.pack Format.binary64 _) = _
      rw [stored]
      simp only [UnpackedFloat.unpack, unpackExponent_packComponents,
        unpackMantissa_packComponents, unpackSign_packComponents, reduceIte]
      rw [if_neg (by decide), dif_neg notZero]
      congr 1
      cases s <;> rfl

end Canonical

-----------------------------------------------------------------------------------------
-- Negation
-----------------------------------------------------------------------------------------

theorem unpack_neg (x : Float) : (-x).toModel.unpack = x.toModel.unpack.neg :=
  (canonical_unpack x).neg.unpack_pack

/-- The number of the other sign. -/
def Binary.opposite (b : Binary) : Binary :=
  { b with negative := !b.negative }

theorem Binary.ofFloat?_neg (x : Float)
    : Binary.ofFloat? (-x) = (Binary.ofFloat? x).map Binary.opposite := by
  rw [Binary.ofFloat?_eq, Binary.ofFloat?_eq, unpack_neg]
  cases x.toModel.unpack with
  | notANumber => rfl
  | infinity s => rfl
  | zero s => cases s <;> rfl
  | finite s m e positive => cases s <;> rfl

theorem Binary.wholePart_opposite (b : Binary) : b.opposite.wholePart = -b.wholePart := by
  obtain ⟨negative, significand, exponent⟩ := b
  cases negative with
  | true => exact (Int.neg_neg _).symm
  | false => rfl

/-- The integer part of the opposite number is the opposite of the integer part. -/
theorem wholePart?_neg (x : Float) : wholePart? (-x) = (wholePart? x).map (- ·) := by
  simp only [wholePart?, Binary.ofFloat?_neg, Option.map_map]
  exact Option.map_congr fun b _ => b.wholePart_opposite

end RowFormula.Decimal
