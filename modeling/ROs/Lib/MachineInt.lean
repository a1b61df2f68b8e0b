import Mathlib.Algebra.Order.Ring.Int

/-!
# Machine integers

`usize` and `u32` values are natural numbers and `i32` values are integers.  Sums and products
are exact where no argument can drive them past the range of the type; where one can, the
computation goes through `usize`, `u32` or `i32`, and an overflow is `none` (the panic of a build
with overflow checks).  Casts wrap.
-/

namespace ROs

/-- `usize::MAX`. -/
abbrev USIZE_MAX : ℕ := 2 ^ 64 - 1

/-- `usize::saturating_add`. -/
def saturatingAdd (a b : ℕ) : ℕ := min (a + b) USIZE_MAX

/-- The result of an unchecked `usize` computation: a panic if it overflows. -/
def usize (n : ℕ) : Option ℕ := if n ≤ USIZE_MAX then some n else none

/-- The result of an unchecked `usize` difference: a panic if it is negative. -/
def usizeSub (a b : ℕ) : Option ℕ := if b ≤ a then some (a - b) else none

/-- The result of an unchecked `u32` computation: a panic if it overflows. -/
def u32 (n : ℕ) : Option ℕ := if n < 2 ^ 32 then some n else none

/-- The result of an unchecked `i32` computation: a panic if it overflows. -/
def i32 (n : ℤ) : Option ℤ := if -2 ^ 31 ≤ n ∧ n < 2 ^ 31 then some n else none

/-- `n as u32`. -/
def asU32 (n : ℕ) : ℕ := n % 2 ^ 32

/-- `n as i32`. -/
def asI32 (n : ℕ) : ℤ := if n % 2 ^ 32 < 2 ^ 31 then n % 2 ^ 32 else n % 2 ^ 32 - 2 ^ 32

/-- `n as usize` of an `i32`. -/
def asUsize (n : ℤ) : ℕ := (n % 2 ^ 64).toNat

theorem usize_of_le {n : ℕ} (h : n ≤ USIZE_MAX) : usize n = some n := if_pos h

theorem usize_eq_some {n m : ℕ} : usize n = some m ↔ n ≤ USIZE_MAX ∧ n = m := by
  simp [usize]

theorem usizeSub_of_le {a b : ℕ} (h : b ≤ a) : usizeSub a b = some (a - b) := if_pos h

theorem usizeSub_eq_some {a b n : ℕ} : usizeSub a b = some n ↔ b ≤ a ∧ a - b = n := by
  simp [usizeSub]

theorem u32_of_lt {n : ℕ} (h : n < 2 ^ 32) : u32 n = some n := if_pos h

theorem i32_of_mem {n : ℤ} (h : -2 ^ 31 ≤ n) (h' : n < 2 ^ 31) : i32 n = some n := if_pos ⟨h, h'⟩

theorem i32_eq_some {n m : ℤ} : i32 n = some m ↔ (-2 ^ 31 ≤ n ∧ n < 2 ^ 31) ∧ n = m := by
  simp only [i32, Option.ite_none_right_eq_some, Option.some.injEq]

/-- A natural number that fits keeps its value as an `i32`. -/
theorem asI32_of_lt {n : ℕ} (h : n < 2 ^ 31) : asI32 n = n := by
  unfold asI32
  split <;> omega

theorem asI32_lt (n : ℕ) : asI32 n < 2 ^ 31 := by
  unfold asI32
  split <;> omega

theorem asI32_le (n : ℕ) : asI32 n ≤ n := by
  unfold asI32
  split <;> omega

/-- A non-negative `i32` keeps its value as a `usize`. -/
theorem asUsize_of_nonneg {n : ℤ} (h : 0 ≤ n) (h' : n < 2 ^ 31) : (asUsize n : ℤ) = n := by
  unfold asUsize
  omega

end ROs
