import Mathlib.Algebra.Order.Group.Int
import Mathlib.Tactic.Linarith

set_option relaxedAutoImplicit false
set_option autoImplicit false

/-!
# C integers

C's `int` is `ℤ` and `uint32_t` is `ℕ`, with the conversions between them where one decides a
branch.

## Main definitions

* `INT_MAX`, `INT_MIN`, `UINT32_MAX` — the limits.
* `u32`, `i32` — the conversions to `uint32_t` and to `int`.
-/

namespace OsSimulator

/-- `INT_MAX`. -/
def INT_MAX : ℤ := 2147483647

/-- `INT_MIN`. -/
def INT_MIN : ℤ := -2147483648

/-- `UINT32_MAX`, which is what `-1` becomes in a `uint32_t`. -/
def UINT32_MAX : ℕ := 4294967295

/-- Conversion of an `int` to `uint32_t`. -/
def u32 (x : ℤ) : ℕ := (x % 4294967296).toNat

/-- Conversion of a `uint32_t` result to `int`. -/
def i32 (x : ℤ) : ℤ := Int.bmod x 4294967296

/-- A non-negative `int` is kept by the conversion to `uint32_t`. -/
lemma u32_of_nonneg {x : ℤ} (h₀ : 0 ≤ x) (h : x ≤ INT_MAX) : (u32 x : ℤ) = x := by
  unfold INT_MAX at h
  unfold u32
  omega

/-- A value in the range of a non-negative `int` is kept by the conversion to `int`. -/
lemma i32_of_nonneg {x : ℤ} (h₀ : 0 ≤ x) (h : x ≤ INT_MAX) : i32 x = x := by
  unfold INT_MAX at h
  rw [i32, Int.bmod_def]
  split <;> omega

/-- A 32-bit number is kept by the conversion to `int` and back. -/
lemma u32_i32 (x : ℤ) : u32 (i32 x) = u32 x := by
  unfold u32 i32
  rw [Int.bmod_def]
  split <;> omega

/-- `u32` is the conversion to `UInt32`. -/
lemma toNat_ofInt (x : ℤ) : (UInt32.ofInt x).toNat = u32 x := by
  unfold u32 UInt32.ofInt
  rw [UInt32.toNat_ofNat']
  omega

end OsSimulator
