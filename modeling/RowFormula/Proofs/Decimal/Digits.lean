import Mathlib
import RowFormula.Decimal.Numeral
import RowFormula.Decimal.Printer

/-! Digits that were written are read again. -/

namespace RowFormula.Decimal

theorem isDigit_digitChar {d : Nat} (small : d < 10) : (Nat.digitChar d).isDigit = true := by
  interval_cases d <;> rfl

theorem digitValue_digitChar {d : Nat} (small : d < 10) : digitValue (Nat.digitChar d) = d := by
  interval_cases d <;> rfl

@[simp]
theorem length_lastDigits (width n : Nat) : (lastDigits width n).length = width := by
  induction width generalizing n with
  | zero => rfl
  | succ width ih => rw [lastDigits, List.length_append, ih, List.length_singleton]

theorem isDigit_of_mem_lastDigits {width n : Nat} {c : Char} (member : c ∈ lastDigits width n)
    : c.isDigit = true := by
  induction width generalizing n with
  | zero => cases member
  | succ width ih =>
      rw [lastDigits, List.mem_append, List.mem_singleton] at member
      rcases member with before | rfl
      · exact ih before
      · exact isDigit_digitChar (Nat.mod_lt n (by decide))

theorem digitsValue_concat (digits : List Char) (c : Char)
    : digitsValue (digits ++ [c]) = 10 * digitsValue digits + digitValue c := by
  rw [digitsValue, digitsFrom, List.foldl_append]
  rfl

/-- The last digits of a number write what is left of it by a power of ten. -/
theorem digitsValue_lastDigits (width n : Nat)
    : digitsValue (lastDigits width n) = n % 10 ^ width := by
  induction width generalizing n with
  | zero => rw [pow_zero, Nat.mod_one]; rfl
  | succ width ih =>
      rw [lastDigits, digitsValue_concat, ih, digitValue_digitChar (Nat.mod_lt n (by decide)),
        pow_succ', Nat.mod_mul, Nat.add_comm]

theorem digitsValue_append_zeros (digits : List Char) (zeros : Nat)
    : digitsValue (digits ++ List.replicate zeros '0') = digitsValue digits * 10 ^ zeros := by
  induction zeros with
  | zero => rw [List.replicate_zero, List.append_nil, pow_zero, Nat.mul_one]
  | succ zeros ih =>
      have zero : digitValue '0' = 0 := rfl
      rw [List.replicate_succ', ← List.append_assoc, digitsValue_concat, ih, zero, pow_succ]
      ring

theorem spanDigits_append {digits rest : List Char} (only : ∀ c ∈ digits, c.isDigit = true)
    (stop : ∀ c ∈ rest.head?, c.isDigit = false)
    : spanDigits (digits ++ rest) = (digits, rest) := by
  rw [spanDigits, List.span_eq_takeWhile_dropWhile, List.takeWhile_append_of_pos only,
    List.dropWhile_append_of_pos only]
  cases rest with
  | nil => simp
  | cons c rest => simp [stop c rfl]

end RowFormula.Decimal
