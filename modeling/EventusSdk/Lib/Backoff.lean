import Mathlib.Algebra.Order.Field.Basic
import Mathlib.Tactic.Linarith

/-!
# Doubling up to a cap

A backoff starts at its least value and doubles until it reaches the greatest.
-/

namespace Backoff

variable {α : Type*} [Field α] [LinearOrder α] {least greatest : α}

/-- The least value doubled `n` times, up to the greatest. -/
def capped (least greatest : α) (n : ℕ) : α := min (least * 2 ^ n) greatest

theorem capped_zero (h : least ≤ greatest) : capped least greatest 0 = least := by
  rw [capped, pow_zero, mul_one, min_eq_left h]

theorem capped_le (n : ℕ) : capped least greatest n ≤ greatest := min_le_right ..

variable [IsStrictOrderedRing α]

/-- One doubling more. -/
theorem capped_succ (h : 0 ≤ greatest) (n : ℕ) :
    capped least greatest (n + 1) = min (capped least greatest n * 2) greatest := by
  have hcap : greatest ≤ greatest * 2 := by linarith
  rw [capped, capped, min_mul_of_nonneg _ _ (by norm_num), min_assoc, min_eq_right hcap, pow_succ, mul_assoc]

theorem le_capped (h0 : 0 ≤ least) (h : least ≤ greatest) (n : ℕ) : least ≤ capped least greatest n := by
  have hpow : (1 : α) ≤ 2 ^ n := one_le_pow₀ (by norm_num)
  exact le_min (le_mul_of_one_le_right h0 hpow) h

/-- A value below the cap does not decrease when it is doubled. -/
theorem le_min_double {x : α} (h0 : 0 ≤ x) (h : x ≤ greatest) : x ≤ min (x * 2) greatest :=
  le_min (by linarith) h

end Backoff
