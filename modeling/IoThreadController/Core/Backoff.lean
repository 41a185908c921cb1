/-
Capped exponential backoff over the naturals, and what saturating arithmetic does to it.

- `backoff base doublings cap`: `base` doubled, never above `cap` and never below `base`.
- `backoff_saturating`: computing it with every operation capped at `top` changes nothing when `base` and `cap` fit.
- `backoff_doublings`: neither does a doubling counter that stops at `top`.
-/
import Mathlib.Tactic

namespace IoThreadController.Core

def backoff (base doublings cap : ℕ) : ℕ := min (base * 2 ^ doublings) (max base cap)

theorem base_le_backoff (base doublings cap : ℕ) : base ≤ backoff base doublings cap := by
  refine le_min ?_ (le_max_left _ _)
  calc base = base * 1 := (mul_one _).symm
    _ ≤ base * 2 ^ doublings := Nat.mul_le_mul_left _ Nat.one_le_two_pow

theorem backoff_le (base doublings cap : ℕ) : backoff base doublings cap ≤ max base cap := min_le_right _ _

/-- enough doublings reach the cap -/
theorem backoff_eq_cap {base doublings cap : ℕ} (hpos : 0 < base) (h : max base cap ≤ 2 ^ doublings) :
    backoff base doublings cap = max base cap := by
  apply min_eq_right
  calc max base cap ≤ 2 ^ doublings := h
    _ = 1 * 2 ^ doublings := (one_mul _).symm
    _ ≤ base * 2 ^ doublings := Nat.mul_le_mul_right _ hpos

/-- power, product and sum saturated at `top` give the same backoff -/
theorem backoff_saturating {base doublings cap top : ℕ} (h : max base cap ≤ top) :
    min (min (base * min (2 ^ doublings) top) top) (max base cap) = backoff base doublings cap := by
  rcases Nat.eq_zero_or_pos base with rfl | hpos
  · simp [backoff]
  · rw [min_assoc, min_eq_right h]
    rcases le_total (2 ^ doublings) top with hle | hge
    · rw [min_eq_left hle]; rfl
    · rw [min_eq_right hge, backoff_eq_cap hpos (h.trans hge)]
      apply min_eq_right
      calc max base cap ≤ top := h
        _ = 1 * top := (one_mul _).symm
        _ ≤ base * top := Nat.mul_le_mul_right _ hpos

/-- a doubling counter that stops at `top` gives the same backoff -/
theorem backoff_doublings {base cap top : ℕ} (h : max base cap ≤ top) (failures skipped : ℕ) (hskip : skipped ≤ 1) :
    backoff base (min failures top - skipped) cap = backoff base (failures - skipped) cap := by
  rcases Nat.eq_zero_or_pos base with rfl | hpos
  · simp [backoff]
  · rcases le_total failures top with hle | hge
    · rw [min_eq_left hle]
    · have hreach : ∀ n, top - 1 ≤ n → max base cap ≤ 2 ^ n := by
        intro n hn
        calc max base cap ≤ top := h
          _ ≤ top - 1 + 1 := by omega
          _ ≤ 2 ^ (top - 1) := Nat.lt_two_pow_self
          _ ≤ 2 ^ n := Nat.pow_le_pow_right (by decide) hn
      rw [min_eq_right hge, backoff_eq_cap hpos (hreach _ (by omega)), backoff_eq_cap hpos (hreach _ (by omega))]

end IoThreadController.Core
