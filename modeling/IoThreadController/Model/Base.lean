/-
Machine arithmetic of the daemon: unsigned saturation, the saturating float-to-integer cast, and monotonic time.

Percentages, utilisations and rates are exact rationals (the source computes them in `f64`; the definitions that round as
it does end in `F64`). `u32` and `u64` values are naturals; every place where the source saturates, truncates or wraps says
so with the helpers below.
-/
import Mathlib.Tactic

namespace IoThreadController

abbrev VmId := String

/-- a monotonic clock reading (`std::time::Instant`), in nanoseconds from the clock's origin -/
abbrev Instant := ℕ

def u32Max : ℕ := 2 ^ 32 - 1

def u64Max : ℕ := 2 ^ 64 - 1

def nanosPerSec : ℕ := 1000000000

/-- `u64::saturating_add` -/
def satAdd (x y : ℕ) : ℕ := min (x + y) u64Max

/-- `u32::saturating_add` -/
def satAdd32 (x y : ℕ) : ℕ := min (x + y) u32Max

/-- `u32::saturating_mul` -/
def satMul32 (x y : ℕ) : ℕ := min (x * y) u32Max

/-- `x as u64` of a float with integral value: negative values become zero, large ones saturate -/
def asU64 (x : ℤ) : ℕ := min x.toNat u64Max

/-- `f64::clamp(0.0, 1.0)` -/
def clampUnit (x : ℚ) : ℚ := if x < 0 then 0 else if 1 < x then 1 else x

/-- `Duration::from_secs` -/
def fromSecs (secs : ℕ) : ℕ := secs * nanosPerSec

/-- `Duration::MAX`, in nanoseconds -/
def durationMax : ℕ := u64Max * nanosPerSec + 999999999

/-- `Duration::saturating_mul` -/
def satMulDuration (duration factor : ℕ) : ℕ := min (duration * factor) durationMax

/-- `Instant::checked_duration_since` -/
def checkedDurationSince (later earlier : Instant) : Option ℕ := if later < earlier then none else some (later - earlier)

/-- `Duration::as_secs_f64` -/
def asSecs (nanos : ℕ) : ℚ := nanos / nanosPerSec

/-- saturating additions saturate once -/
theorem satAdd_min (x y : ℕ) : satAdd (min x u64Max) y = min (x + y) u64Max := by
  unfold satAdd; omega

theorem checkedDurationSince_of_le {later earlier : Instant} (h : earlier ≤ later) :
    checkedDurationSince later earlier = some (later - earlier) := by
  simp [checkedDurationSince, not_lt.2 h]

theorem asSecs_pos {nanos : ℕ} (h : 0 < nanos) : 0 < asSecs nanos := by
  have : (0 : ℚ) < nanos := by exact_mod_cast h
  simp only [asSecs, nanosPerSec]; positivity

end IoThreadController
