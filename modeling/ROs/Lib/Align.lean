import Mathlib.Data.Nat.Bitwise

/-!
# Alignment by masks

Machine code rounds an address down to a multiple of `2 ^ k` by clearing its low `k` bits:
`a & !(align - 1)`.  On a `w`-bit word the mask is `2 ^ w - 1 - (2 ^ k - 1)`, and clearing is
`a / 2 ^ k * 2 ^ k` (`Align.land_mask`); the same holds for `UInt64` (`Align.toNat_and_not`),
where rounding up is rounding down after adding `align - 1` (`Align.toNat_add_and_not`).
-/

namespace ROs

namespace Align

/-- Clearing the low `k` bits of a `w`-bit number. -/
theorem land_mask {a w k : ℕ} (ha : a < 2 ^ w) :
    a &&& (2 ^ w - 1 - (2 ^ k - 1)) = a / 2 ^ k * 2 ^ k := by
  refine Nat.eq_of_testBit_eq fun i => ?_
  have hmask : 2 ^ w - 1 - (2 ^ k - 1) = 2 ^ w - ((2 ^ k - 1) + 1) := by omega
  rw [Nat.testBit_land, Nat.testBit_mul_two_pow, Nat.testBit_div_two_pow, hmask]
  by_cases hk : 2 ^ k - 1 < 2 ^ w
  · rw [Nat.testBit_two_pow_sub_succ hk, Nat.testBit_two_pow_sub_one]
    by_cases h : k ≤ i
    · by_cases hw : i < w
      · simp [h, hw, Nat.not_lt.2 h]
      · have : a.testBit i = false :=
          Nat.testBit_lt_two_pow (ha.trans_le (Nat.pow_le_pow_right (by decide) (by omega)))
        simp [h, this]
    · simp [h, Nat.lt_of_not_le h]
  · have h0 : 2 ^ w - ((2 ^ k - 1) + 1) = 0 := by omega
    by_cases h : k ≤ i
    · have : a.testBit i = false := Nat.testBit_lt_two_pow
        (ha.trans_le ((by omega : 2 ^ w ≤ 2 ^ k).trans (Nat.pow_le_pow_right (by decide) h)))
      simp [h0, h, this]
    · simp [h0, h]

variable {a m : UInt64} {k : ℕ}

/-- `a & !(align - 1)` for `align = 2 ^ k`. -/
theorem toNat_and_not (hm : m.toNat = 2 ^ k) :
    (a &&& ~~~(m - 1)).toNat = a.toNat / 2 ^ k * 2 ^ k := by
  have h1 : (m - 1).toNat = 2 ^ k - 1 := by
    have hpos : 0 < 2 ^ k := Nat.two_pow_pos k
    have hle : (1 : UInt64) ≤ m := by
      rw [UInt64.le_iff_toNat_le, UInt64.toNat_one, hm]; omega
    rw [UInt64.toNat_sub_of_le _ _ hle, hm]; rfl
  rw [UInt64.toNat_and, UInt64.toNat_not, h1]
  exact land_mask (w := 64) a.toNat_lt

/-- `(a + align - 1) & !(align - 1)` for `align = 2 ^ k`, when the sum does not wrap. -/
theorem toNat_add_and_not (hm : m.toNat = 2 ^ k) (h : a.toNat + 2 ^ k < 2 ^ 64) :
    ((a + m - 1) &&& ~~~(m - 1)).toNat = (a.toNat + (2 ^ k - 1)) / 2 ^ k * 2 ^ k := by
  have hpos : 0 < 2 ^ k := Nat.two_pow_pos k
  have hadd : (a + m).toNat = a.toNat + 2 ^ k := by
    rw [UInt64.toNat_add, hm]; exact Nat.mod_eq_of_lt h
  have hle : (1 : UInt64) ≤ a + m := by
    rw [UInt64.le_iff_toNat_le, UInt64.toNat_one, hadd]; omega
  rw [toNat_and_not hm, UInt64.toNat_sub_of_le _ _ hle, UInt64.toNat_one, hadd,
    Nat.add_sub_assoc hpos]

end Align

end ROs
