/-
Mean rates of a counter that is read at one time and stamped with another.

A reading `(c, t)` of a counter that grows at rate `r` from zero has lag `l` when `c = r * (t + l)`: it was taken `l`
after its stamp (before it, when `l` is negative).

- `meanRate_lag`: the mean rate between two readings is off by the difference of their lags over the window length.
- `meanRate_eq_iff`, `le_meanRate_iff`: it is exact iff the lags agree, and inflated iff the later reading lags more.
-/
import Mathlib.Tactic

namespace IoThreadController.Core

variable {K : Type*} [Field K]

/-- the mean rate between the readings `(c, t)` and `(c', t')` -/
def meanRate (c t c' t' : K) : K := (c' - c) / (t' - t)

theorem meanRate_lag {r t t' l l' : K} (h : t' - t ≠ 0) :
    meanRate (r * (t + l)) t (r * (t' + l')) t' = r + r * (l' - l) / (t' - t) := by
  unfold meanRate
  field_simp
  ring

theorem meanRate_eq_iff {r t t' l l' : K} (hr : r ≠ 0) (h : t' - t ≠ 0) :
    meanRate (r * (t + l)) t (r * (t' + l')) t' = r ↔ l = l' := by
  rw [meanRate_lag h]
  constructor
  · intro heq
    have hzero : r * (l' - l) / (t' - t) = 0 := by linear_combination heq
    rcases div_eq_zero_iff.1 hzero with hmul | hlen
    · rcases mul_eq_zero.1 hmul with h0 | h0
      · exact absurd h0 hr
      · exact (sub_eq_zero.1 h0).symm
    · exact absurd hlen h
  · rintro rfl
    simp

theorem le_meanRate_iff [LinearOrder K] [IsStrictOrderedRing K] {r t t' l l' : K} (hr : 0 < r) (h : t < t') :
    r ≤ meanRate (r * (t + l)) t (r * (t' + l')) t' ↔ l ≤ l' := by
  have hlen : 0 < t' - t := sub_pos.2 h
  rw [meanRate_lag hlen.ne']
  constructor
  · intro hle
    have hnonneg : 0 ≤ r * (l' - l) / (t' - t) := by linarith
    have hmul : 0 ≤ r * (l' - l) := by
      by_contra hneg
      exact absurd hnonneg (not_le.2 (div_neg_of_neg_of_pos (not_le.1 hneg) hlen))
    have hdiff : 0 ≤ l' - l := nonneg_of_mul_nonneg_right hmul hr
    linarith
  · intro hle
    have hdiff : 0 ≤ l' - l := sub_nonneg.2 hle
    have hnonneg : 0 ≤ r * (l' - l) / (t' - t) := by positivity
    linarith

end IoThreadController.Core
