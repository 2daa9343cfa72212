/-
  Fixed-width arithmetic of the source's `int` and `unsigned int`.

  An `int` counter incremented past its maximum continues at the minimum (the code the compiler emits
  for it is a plain 32-bit add); `int32` is the value a 32-bit register holds for an integer.
  `unsigned int` values are natural numbers reduced by `u32` where the source's arithmetic can leave
  the range; rounding to a power of two is masking, as in the source, and `and_mask_eq` reads it back
  as a division.
-/
import Mathlib.Algebra.Order.Ring.Nat
import Mathlib.Data.Int.DivMod

namespace Lyth.Word

/-- The `int` with the same low 32 bits. -/
def int32 (n : Int) : Int := Int.bmod n (2 ^ 32)

/-- An `int` holds `n`. -/
def IsInt (n : Int) : Prop := -2 ^ 31 ≤ n ∧ n < 2 ^ 31

theorem int32_add (a b : Int) : int32 (int32 a + b) = int32 (a + b) := by
  simp only [int32, Int.bmod_add_bmod]

theorem int32_of_lt {n : Nat} (h : n < 2 ^ 31) : int32 n = n := by
  refine Int.bmod_eq_of_le ?_ ?_ <;> omega

/-- The `unsigned int` with the same low 32 bits. -/
def u32 (n : Nat) : Nat := n % 2 ^ 32

theorem u32_lt (n : Nat) : u32 n < 2 ^ 32 := Nat.mod_lt _ (by decide)

theorem u32_of_lt {n : Nat} (h : n < 2 ^ 32) : u32 n = n := Nat.mod_eq_of_lt h

/-- `~n` on 32 bits. -/
def not32 (n : Nat) : Nat := 2 ^ 32 - 1 - u32 n

/-- `value & ~(alignment - 1)`. -/
def alignDown (value alignment : Nat) : Nat := value &&& not32 (alignment - 1)

/-- `(value + alignment - 1) & ~(alignment - 1)`. -/
def alignUp (value alignment : Nat) : Nat :=
  u32 (value + alignment - 1) &&& not32 (alignment - 1)

/-- The mask that clears the low `k` bits. -/
theorem not32_mask {k : Nat} (hk : k ≤ 32) : not32 (2 ^ k - 1) = (2 ^ (32 - k) - 1) * 2 ^ k := by
  have hpow : 2 ^ (32 - k) * 2 ^ k = 2 ^ 32 := by rw [← Nat.pow_add, Nat.sub_add_cancel hk]
  have hle : 2 ^ k ≤ 2 ^ 32 := Nat.pow_le_pow_right (by decide) hk
  have hpos : 0 < 2 ^ k := Nat.two_pow_pos k
  rw [not32, u32_of_lt (by omega), Nat.sub_mul, hpow]
  omega

/-- Masking rounds down to a multiple of the power of two. -/
theorem and_mask_eq {k n : Nat} (hk : k ≤ 32) (hn : n < 2 ^ 32) :
    n &&& not32 (2 ^ k - 1) = n / 2 ^ k * 2 ^ k := by
  have hpow : 2 ^ k * 2 ^ (32 - k) = 2 ^ 32 := by rw [← Nat.pow_add, Nat.add_sub_cancel' hk]
  have hdiv : (n &&& not32 (2 ^ k - 1)) / 2 ^ k = n / 2 ^ k := by
    have hshift : not32 (2 ^ k - 1) >>> k = 2 ^ (32 - k) - 1 := by
      rw [not32_mask hk, Nat.shiftRight_eq_div_pow, Nat.mul_div_cancel _ (Nat.two_pow_pos k)]
    rw [← Nat.shiftRight_eq_div_pow, ← Nat.shiftRight_eq_div_pow, Nat.shiftRight_and_distrib, hshift,
      Nat.and_two_pow_sub_one_eq_mod, Nat.shiftRight_eq_div_pow]
    exact Nat.mod_eq_of_lt (Nat.div_lt_of_lt_mul (by omega))
  have hmod : (n &&& not32 (2 ^ k - 1)) % 2 ^ k = 0 := by
    have hmask : not32 (2 ^ k - 1) &&& (2 ^ k - 1) = 0 := by
      rw [Nat.and_two_pow_sub_one_eq_mod, not32_mask hk, Nat.mul_mod_left]
    rw [← Nat.and_two_pow_sub_one_eq_mod, Nat.and_assoc, hmask, Nat.and_zero]
  rw [← hdiv]
  exact (Nat.div_mul_cancel (Nat.dvd_of_mod_eq_zero hmod)).symm

/-- Rounding up to a power of two; the sum wraps on 32 bits. -/
theorem alignUp_pow {k : Nat} (hk : k ≤ 32) (n : Nat) :
    alignUp n (2 ^ k) = u32 (n + 2 ^ k - 1) / 2 ^ k * 2 ^ k := and_mask_eq hk (u32_lt _)

theorem alignDown_page {n : Nat} (h : n < 2 ^ 32) : alignDown n 4096 = n / 4096 * 4096 :=
  and_mask_eq (k := 12) (by decide) h

/-- Rounding down to a page, in page numbers. -/
theorem alignDown_div {n : Nat} (h : n < 2 ^ 32) : alignDown n 4096 / 4096 = n / 4096 := by
  rw [alignDown_page h, Nat.mul_div_cancel _ (by decide)]

/-- Rounding up to a page, in multiples of the page size. -/
theorem alignUp_eq (n : Nat) : alignUp n 4096 = u32 (n + 4095) / 4096 * 4096 :=
  alignUp_pow (k := 12) (by decide) n

theorem alignUp_div (n : Nat) : alignUp n 4096 / 4096 = u32 (n + 4095) / 4096 := by
  rw [alignUp_eq, Nat.mul_div_cancel _ (by decide)]

/-- Rows of one length do not overlap. -/
theorem row_le {i j : Nat} (h : i < j) (len : Nat) : i * len + len ≤ j * len := by
  rw [← Nat.succ_mul]
  exact Nat.mul_le_mul_right len h

end Lyth.Word
