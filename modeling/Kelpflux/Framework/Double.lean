import Mathlib.Data.Int.Log
import Mathlib.Data.Rat.Floor
import Mathlib.Algebra.Order.Field.Rat

/-!
# Doubles

The number that a double holds for a rational one: the nearest with 53 bits, and
the even one from the middle (`toDouble`). The range of the exponent is left out.
An integer of fewer than 53 bits, divided by a power of two, is held exactly:
`toDouble_exact`.
-/

namespace Kelpflux.Framework

/-- The nearest integer, and the even one from the middle. -/
def roundEven (q : ℚ) : ℤ :=
  let r := q - ⌊q⌋
  if r < 1 / 2 ∨ (r = 1 / 2 ∧ ⌊q⌋ % 2 = 0) then ⌊q⌋ else ⌊q⌋ + 1

/-- The double nearest to a number. -/
def toDouble (q : ℚ) : ℚ :=
  if q = 0 then 0
  else
    let e := Int.log 2 |q| - 52
    roundEven (q / 2 ^ e) * 2 ^ e

theorem roundEven_intCast (n : ℤ) : roundEven n = n := by
  unfold roundEven
  rw [Int.floor_intCast, sub_self]
  exact if_pos (.inl (by norm_num))

theorem toDouble_exact {n : ℤ} {j : ℕ} (h : |n| < 2 ^ 53) :
    toDouble (n / 2 ^ j) = n / 2 ^ j := by
  unfold toDouble
  split
  · rename_i h0
    exact h0.symm
  · rename_i h0
    have hpos : (0 : ℚ) < |(n : ℚ) / 2 ^ j| := abs_pos.mpr h0
    have hlt : |(n : ℚ) / 2 ^ j| < (2 : ℕ) ^ (53 - j : ℤ) := by
      rw [abs_div, abs_of_pos (by positivity : (0 : ℚ) < 2 ^ j), Nat.cast_ofNat,
        zpow_sub₀ (by norm_num), zpow_natCast, div_lt_div_iff_of_pos_right (by positivity)]
      exact_mod_cast h
    have hlog : Int.log 2 |(n : ℚ) / 2 ^ j| < 53 - j :=
      (Int.lt_zpow_iff_log_lt (by norm_num) hpos).mp hlt
    dsimp only
    obtain ⟨k, hk⟩ : ∃ k : ℕ, Int.log 2 |(n : ℚ) / 2 ^ j| - 52 = -(j + k : ℤ) :=
      ⟨(52 - j - Int.log 2 |(n : ℚ) / 2 ^ j|).toNat, by omega⟩
    rw [hk]
    have hscale : (n : ℚ) / 2 ^ j / 2 ^ (-(j + k : ℤ)) = ((n * 2 ^ k : ℤ) : ℚ) := by
      rw [zpow_neg, div_inv_eq_mul, zpow_add₀ (by norm_num), zpow_natCast, zpow_natCast]
      push_cast
      field_simp
    rw [hscale, roundEven_intCast, zpow_neg, zpow_add₀ (by norm_num), zpow_natCast, zpow_natCast]
    push_cast
    field_simp

end Kelpflux.Framework
