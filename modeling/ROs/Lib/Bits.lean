import Mathlib.Tactic.Common
import Mathlib.Data.Nat.Notation

/-!
# Bytes as fields of a 32-bit word

The bits of a word put together from shifted bytes, of the bytes of a word, and of an 8-bit field
cut out of a word, all as `Nat.testBit`.  A byte stored in a field is read back from it
(`Bits.toUInt8_shiftRight`) whatever is stored outside the field (`Bits.testBit_outside`), and the
first bytes of a word in little-endian order carry its low bits
(`Bits.testBit_ofLeBytes_toLeBytes`).
-/

namespace ROs

namespace Bits

/-- `u32::to_le_bytes`. -/
def toLeBytes (v : UInt32) : Array UInt8 :=
  #[v.toUInt8, (v >>> 8).toUInt8, (v >>> 16).toUInt8, (v >>> 24).toUInt8]

/-- A `u32` assembled from its first `len` bytes in little-endian order. -/
def ofLeBytes (len : ℕ) (byte : ℕ → UInt8) : UInt32 :=
  (List.range len).foldl (fun raw i => raw ||| (byte i).toUInt32 <<< (i * 8).toUInt32) 0

theorem testBit_uint8 (v : UInt8) {j : ℕ} (hj : 8 ≤ j) : v.toNat.testBit j = false :=
  Nat.testBit_lt_two_pow (Nat.lt_of_lt_of_le v.toNat_lt (Nat.pow_le_pow_right (by omega) hj))

/-- The bits of a byte shifted into a `u32`. -/
theorem testBit_shiftByte {v : UInt8} {s : UInt32} (hs : s.toNat + 8 ≤ 32) (j : ℕ) :
    (v.toUInt32 <<< s).toNat.testBit j =
      (decide (s.toNat ≤ j) && v.toNat.testBit (j - s.toNat)) := by
  rw [UInt32.toNat_shiftLeft, UInt8.toNat_toUInt32, Nat.mod_eq_of_lt (show s.toNat < 32 by omega),
    Nat.testBit_mod_two_pow, Nat.testBit_shiftLeft]
  by_cases hj : j < 32
  · simp [hj]
  · simp [hj, testBit_uint8 v (show 8 ≤ j - s.toNat by omega)]

/-- A byte shifted to `s` has no bits in another 8-bit field. -/
theorem testBit_outside {v : UInt8} {s t j : ℕ} (hj : j < 8) (h : t + 8 ≤ s ∨ s + 8 ≤ t) :
    (decide (s ≤ t + j) && v.toNat.testBit (t + j - s)) = false := by
  rcases h with h | h
  · simp [show ¬ s ≤ t + j by omega]
  · rw [testBit_uint8 v (by omega), Bool.and_false]

/-- Cutting an 8-bit field out of a `u32`. -/
theorem toUInt8_shiftRight {raw : UInt32} {v : UInt8} {s : UInt32} (hs : s.toNat + 8 ≤ 32)
    (h : ∀ j < 8, raw.toNat.testBit (s.toNat + j) = v.toNat.testBit j) :
    (raw >>> s &&& 0xFF).toUInt8 = v := by
  apply UInt8.toNat_inj.1
  refine Nat.eq_of_testBit_eq fun j => ?_
  rw [UInt32.toNat_toUInt8, Nat.testBit_mod_two_pow]
  by_cases hj : j < 8
  · rw [UInt32.toNat_and, UInt32.toNat_shiftRight, Nat.testBit_and, Nat.testBit_shiftRight,
      Nat.mod_eq_of_lt (show s.toNat < 32 by omega), h j hj,
      show (0xFF : UInt32).toNat = 2 ^ 8 - 1 from rfl, Nat.testBit_two_pow_sub_one]
    simp [hj]
  · simp [hj, testBit_uint8 v (Nat.not_lt.1 hj)]

theorem testBit_ofLeBytes (byte : ℕ → UInt8) {len : ℕ} (hlen : len ≤ 4) (j : ℕ) :
    (ofLeBytes len byte).toNat.testBit j =
      (decide (j < 8 * len) && (byte (j / 8)).toNat.testBit (j % 8)) := by
  unfold ofLeBytes
  induction len with
  | zero => simp
  | succ len ih =>
    have hs : (len * 8).toUInt32.toNat = 8 * len := by
      rw [Nat.mul_comm]
      exact Nat.mod_eq_of_lt (by omega)
    rw [List.range_succ, List.foldl_append, List.foldl_cons, List.foldl_nil, UInt32.toNat_or,
      Nat.testBit_or, ih (by omega), testBit_shiftByte (by omega), hs]
    rcases Nat.lt_or_ge j (8 * len) with hj | hj
    · simp [hj, Nat.not_le.2 hj, show j < 8 * (len + 1) by omega]
    · rcases Nat.lt_or_ge j (8 * (len + 1)) with hj' | hj'
      · simp [hj, hj', Nat.not_lt.2 hj, show j / 8 = len by omega,
          show j % 8 = j - 8 * len by omega]
      · simp [hj, Nat.not_lt.2 hj, Nat.not_lt.2 hj',
          testBit_uint8 _ (show 8 ≤ j - 8 * len by omega)]

/-- The bits of the bytes of a `u32`. -/
theorem testBit_toLeBytes (v : UInt32) {j : ℕ} (hj : j < 32) :
    (((toLeBytes v)[j / 8]?).getD 0).toNat.testBit (j % 8) = v.toNat.testBit j := by
  obtain ⟨m, k, hk, rfl⟩ : ∃ m k, k < 8 ∧ j = 8 * m + k := ⟨j / 8, j % 8, by omega, by omega⟩
  have hm : m < 4 := by omega
  rw [show (8 * m + k) / 8 = m by omega, show (8 * m + k) % 8 = k by omega]
  have hmod : ∀ n : ℕ, (n % 256).testBit k = n.testBit k := fun n => by
    rw [show 256 = 2 ^ 8 from rfl, Nat.testBit_mod_two_pow]
    simp [hk]
  rcases m with _ | _ | _ | _ | m
  · simp [toLeBytes, hmod]
  · simp [toLeBytes, hmod]
  · simp [toLeBytes, hmod]
  · simp [toLeBytes, hmod]
  · omega

/-- The first bytes of a `u32` carry its low bits. -/
theorem testBit_ofLeBytes_toLeBytes (v : UInt32) {byte : ℕ → UInt8} {len j : ℕ} (hlen : len ≤ 4)
    (hbyte : ∀ i < len, byte i = ((toLeBytes v)[i]?).getD 0) (hj : j < 8 * len) :
    (ofLeBytes len byte).toNat.testBit j = v.toNat.testBit j := by
  rw [testBit_ofLeBytes _ hlen, hbyte _ (by omega), testBit_toLeBytes v (by omega)]
  simp [hj]

end Bits

end ROs
