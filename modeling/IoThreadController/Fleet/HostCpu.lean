/-
The host CPU use that the ceiling guard compares.

The kernel counts a tick of guest time in `user` as well, and a tick of niced guest time in `nice`; the sample adds the
guest counters once more.

- `counted_ticks`: what two readings come to, with saturation: the total grows by the real ticks and the guest ticks.
- `hostCpu_counts_once_iff`: the utilisation is the real one exactly when no guest tick passed, or the host was entirely
  idle or entirely busy (or the sum of the counters has run into the end of `u64`).
- `use_lt_utilisation`: otherwise the host reads hotter than it is, so the ceiling stops scale-ups too early, never too
  late.
-/
import IoThreadController.Model.HostCpu
import IoThreadController.Fleet.Ceiling

namespace IoThreadController

/-! ## Counters -/

namespace CpuTime

/-- the ticks that passed: guest time is part of `user` and `nice` -/
def ticks (t : CpuTime) : ℕ :=
  t.user + t.nice + t.system + t.idle + t.iowait.getD 0 + t.irq.getD 0 + t.softirq.getD 0 + t.steal.getD 0

def idleTicks (t : CpuTime) : ℕ := t.idle + t.iowait.getD 0

def guestTicks (t : CpuTime) : ℕ := t.guest.getD 0 + t.guestNice.getD 0

/-- the ten counters added up -/
def sum (t : CpuTime) : ℕ := t.ticks + t.guestTicks

end CpuTime

/-- the sample is the sum of the ten counters, saturated once -/
theorem readHostCpuSample_eq (t : CpuTime) : readHostCpuSample t =
    { busyTicks := min t.sum u64Max - min t.idleTicks u64Max, totalTicks := min t.sum u64Max } := by
  have hfirst : satAdd t.user t.nice = min (t.user + t.nice) u64Max := rfl
  have hidle : satAdd t.idle (t.iowait.getD 0) = min t.idleTicks u64Max := rfl
  have hsum : t.user + t.nice + t.system + t.idle + t.iowait.getD 0 + t.irq.getD 0 + t.softirq.getD 0 +
      t.steal.getD 0 + t.guest.getD 0 + t.guestNice.getD 0 = t.sum := Nat.add_assoc _ _ _
  simp only [readHostCpuSample, hfirst, hidle, satAdd_min, hsum]

/-- two successive readings under the kernel's accounting: counters never decrease, and each tick of guest time is a tick
of `user` (or `nice`) too -/
structure CpuReadings where
  prev : CpuTime
  cur : CpuTime
  system_le : prev.system ≤ cur.system
  idle_le : prev.idle ≤ cur.idle
  iowait_le : prev.iowait.getD 0 ≤ cur.iowait.getD 0
  irq_le : prev.irq.getD 0 ≤ cur.irq.getD 0
  softirq_le : prev.softirq.getD 0 ≤ cur.softirq.getD 0
  steal_le : prev.steal.getD 0 ≤ cur.steal.getD 0
  guest_le : prev.guest.getD 0 ≤ cur.guest.getD 0
  guestNice_le : prev.guestNice.getD 0 ≤ cur.guestNice.getD 0
  guest_in_user : prev.user + (cur.guest.getD 0 - prev.guest.getD 0) ≤ cur.user
  guestNice_in_nice : prev.nice + (cur.guestNice.getD 0 - prev.guestNice.getD 0) ≤ cur.nice

namespace CpuReadings
variable (r : CpuReadings)

def total : ℕ := r.cur.ticks - r.prev.ticks

def idle : ℕ := r.cur.idleTicks - r.prev.idleTicks

def guest : ℕ := r.cur.guestTicks - r.prev.guestTicks

/-- the real use: the share of the ticks that were not idle -/
def use : ℚ := if r.total = 0 then 0 else ((r.total - r.idle : ℕ) : ℚ) / r.total

theorem ticks_add : r.prev.ticks + r.total = r.cur.ticks := by
  obtain ⟨prev, cur, _⟩ := r
  simp only [total, CpuTime.ticks]
  omega

theorem idle_add : r.prev.idleTicks + r.idle = r.cur.idleTicks := by
  have h1 := r.idle_le
  have h2 := r.iowait_le
  simp only [idle, CpuTime.idleTicks]
  omega

theorem guest_add : r.prev.guestTicks + r.guest = r.cur.guestTicks := by
  have h1 := r.guest_le
  have h2 := r.guestNice_le
  simp only [guest, CpuTime.guestTicks]
  omega

/-- guest ticks are busy ticks -/
theorem guest_add_idle_le : r.guest + r.idle ≤ r.total := by
  obtain ⟨prev, cur, _⟩ := r
  simp only [total, idle, guest, CpuTime.ticks, CpuTime.idleTicks, CpuTime.guestTicks]
  omega

/-! ## What two samples count -/

/-- the ticks that the total grows by: real and guest ticks, up to the end of `u64` -/
def counted : ℕ := min (r.total + r.guest) (u64Max - r.prev.sum)

theorem counted_ticks :
    (readHostCpuSample r.cur).totalTicks - (readHostCpuSample r.prev).totalTicks = r.counted ∧
      (readHostCpuSample r.cur).busyTicks - (readHostCpuSample r.prev).busyTicks = r.counted - r.idle := by
  have hticks := r.ticks_add
  have hidle := r.idle_add
  have hguest := r.guest_add
  have hle := r.guest_add_idle_le
  have hprev : r.prev.idleTicks ≤ r.prev.sum := by
    simp only [CpuTime.sum, CpuTime.ticks, CpuTime.idleTicks]; omega
  simp only [readHostCpuSample_eq, counted, CpuTime.sum] at hprev ⊢
  constructor <;> omega

/-- the utilisation of two samples -/
theorem utilisation_eq : hostCpuUtilisation (readHostCpuSample r.prev) (readHostCpuSample r.cur) =
    if r.counted = 0 then 0 else ((r.counted - r.idle : ℕ) : ℚ) / r.counted := by
  obtain ⟨htotal, hbusy⟩ := r.counted_ticks
  unfold hostCpuUtilisation
  rw [htotal, hbusy]
  simp only [Nat.cast_eq_zero]
  refine if_congr Iff.rfl rfl ?_
  have hle : ((r.counted - r.idle : ℕ) : ℚ) / r.counted ≤ 1 :=
    div_le_one_of_le₀ (Nat.cast_le.2 (Nat.sub_le _ _)) (Nat.cast_nonneg _)
  have hnonneg : (0 : ℚ) ≤ ((r.counted - r.idle : ℕ) : ℚ) / r.counted := by positivity
  unfold clampUnit
  rw [if_neg (not_lt.2 hnonneg), if_neg (not_lt.2 hle)]

/-- unless the counters' sum leaves `u64`, guest ticks count as busy ticks once more -/
theorem utilisation_of_fits (h : r.cur.sum ≤ u64Max) (hrun : r.total ≠ 0) :
    hostCpuUtilisation (readHostCpuSample r.prev) (readHostCpuSample r.cur) =
      ((r.total - r.idle : ℕ) + r.guest : ℚ) / (r.total + r.guest) := by
  have hticks := r.ticks_add
  have hguest := r.guest_add
  have hle := r.guest_add_idle_le
  have hcounted : r.counted = r.total + r.guest := by
    simp only [counted, CpuTime.sum] at h ⊢; omega
  have hbusy : r.total + r.guest - r.idle = r.total - r.idle + r.guest := by omega
  rw [utilisation_eq, if_neg (by omega), hcounted, hbusy]
  push_cast
  rfl

/-- the cases in which counting guest ticks twice, or losing ticks at the end of `u64`, does not show -/
def CountsOnce : Prop :=
  r.idle = r.total ∨ (r.idle = 0 ∧ r.prev.sum < u64Max) ∨ (r.guest = 0 ∧ r.prev.sum + r.total ≤ u64Max) ∨
    r.prev.sum + r.total = u64Max

/-- a host whose guest ticks show reads hotter than it is -/
theorem use_lt_utilisation (h : r.cur.sum ≤ u64Max) (hshow : ¬ r.CountsOnce) :
    r.use < hostCpuUtilisation (readHostCpuSample r.prev) (readHostCpuSample r.cur) := by
  have hticks := r.ticks_add
  have hguest := r.guest_add
  have hle := r.guest_add_idle_le
  obtain ⟨hbusy, hidle, hpos⟩ : r.idle < r.total ∧ 0 < r.idle ∧ 0 < r.guest := by
    unfold CountsOnce at hshow
    simp only [CpuTime.sum] at h hshow
    omega
  have ht : (0 : ℚ) < r.total := by exact_mod_cast (hidle.trans hbusy)
  have hg : (0 : ℚ) < r.guest := by exact_mod_cast hpos
  have hi : ((r.total - r.idle : ℕ) : ℚ) < r.total := by exact_mod_cast Nat.sub_lt (hidle.trans hbusy) hidle
  rw [utilisation_of_fits r h (by omega), use, if_neg (by omega), div_lt_div_iff₀ ht (by positivity)]
  calc ((r.total - r.idle : ℕ) : ℚ) * (r.total + r.guest)
      = (r.total - r.idle : ℕ) * r.total + (r.total - r.idle : ℕ) * r.guest := mul_add _ _ _
    _ < (r.total - r.idle : ℕ) * r.total + r.total * r.guest := by gcongr
    _ = ((r.total - r.idle : ℕ) + r.guest) * r.total := by ring

/-- cross-multiplied equality of two shares, `counted` standing for `total` -/
theorem shares_eq_iff {counted idle total : ℕ} (hc : 0 < counted) (hidle : idle ≤ total)
    (hcount : counted + idle ≤ 2 * total) :
    (counted - idle) * total = (total - idle) * counted ↔ idle = total ∨ idle = 0 ∨ counted = total := by
  obtain ⟨busy, rfl⟩ := Nat.exists_eq_add_of_le hidle
  rw [Nat.add_sub_cancel_left]
  rcases le_or_gt idle counted with hle | hlt
  · obtain ⟨rest, rfl⟩ := Nat.exists_eq_add_of_le hle
    rw [Nat.add_sub_cancel_left]
    have hcross : rest * (idle + busy) = busy * (idle + rest) ↔ rest * idle = busy * idle := by
      rw [mul_add, mul_add, mul_comm busy rest, Nat.add_right_cancel_iff]
    rw [hcross, mul_comm rest, mul_comm busy, mul_eq_mul_left_iff]
    omega
  · rw [Nat.sub_eq_zero_of_le hlt.le, zero_mul, eq_comm, mul_eq_zero]
    omega

theorem counted_pos_of {r : CpuReadings} (h : r.CountsOnce) (hne : r.idle ≠ r.total) : 0 < r.counted := by
  have hle := r.guest_add_idle_le
  unfold CountsOnce at h
  unfold counted
  omega

theorem utilisation_eq_use_iff :
    hostCpuUtilisation (readHostCpuSample r.prev) (readHostCpuSample r.cur) = r.use ↔ r.CountsOnce := by
  have hle := r.guest_add_idle_le
  have hcounted : r.counted ≤ r.total + r.guest := min_le_left _ _
  rw [utilisation_eq, use]
  by_cases hc : r.counted = 0
  · rw [if_pos hc]
    have huse : 0 = (if r.total = 0 then 0 else ((r.total - r.idle : ℕ) : ℚ) / r.total) ↔ r.idle = r.total := by
      split_ifs with ht
      · simp only [true_iff]; omega
      · rw [eq_comm, div_eq_zero_iff, Nat.cast_eq_zero, Nat.cast_eq_zero]; omega
    rw [huse]
    refine ⟨.inl, fun h => ?_⟩
    by_contra hne
    exact (counted_pos_of h hne).ne' hc
  · have ht : r.total ≠ 0 := by omega
    have hcpos : (0 : ℚ) < r.counted := by exact_mod_cast Nat.pos_of_ne_zero hc
    have htpos : (0 : ℚ) < r.total := by exact_mod_cast Nat.pos_of_ne_zero ht
    rw [if_neg hc, if_neg ht, div_eq_div_iff hcpos.ne' htpos.ne']
    norm_cast
    rw [shares_eq_iff (Nat.pos_of_ne_zero hc) (by omega) (by omega)]
    unfold CountsOnce
    simp only [counted] at hc ⊢
    omega

end CpuReadings

/-! ## The ceiling -/

variable {E : ScalingEngine}

open Controller

/-- a tick reports a block by the ceiling only when the use it computed is at or above it -/
theorem ceiling_report {c : Controller E} {env : TickEnv} {vm : VmId} {action : ScaleAction}
    (h : (vm, .blocked action .hostCpuCeiling) ∈ (c.tick env).2.1.filterMap reported) :
    c.cfg.hostCpuScaleUpCeiling ≤ (c.beginTick env).hostCpuUtil := by
  rw [tick_reports] at h
  obtain ⟨x, hx, hmem⟩ := List.mem_flatMap.1 h
  obtain ⟨hcfg, -, i, t, -, hi, ht, -⟩ := tickAttempts_spec hx
  rw [tryEntry_report hi ht, List.mem_singleton] at hmem
  have houtcome : x.1.attemptOutcome (env.attempt x.2.instanceId) i x.2.action t = .blocked action .hostCpuCeiling :=
    (Prod.mk.inj hmem).2.symm
  obtain ⟨-, -, hceiling⟩ := guard_blocks (attemptOutcome_blocked houtcome).2
  calc
    c.cfg.hostCpuScaleUpCeiling = x.1.cfg.hostCpuScaleUpCeiling := by rw [hcfg]
    _ ≤ x.1.hostCpuUtil := hceiling
    _ = (c.beginTick env).hostCpuUtil := by rw [(tickAttempts_apart hx).hostCpuUtil, decidedTick_hostCpuUtil]

/-- the use that a tick computes from its own reading and the one before -/
theorem beginTick_hostCpuUtil {c : Controller E} {env : TickEnv} {prev cur : HostCpuSample}
    (hlast : c.lastHostCpu = some prev) (hcur : env.hostCpu = some cur) :
    (c.beginTick env).hostCpuUtil = hostCpuUtilisation prev cur := by
  unfold beginTick
  rw [hcur]
  dsimp only
  rw [hlast]
  split_ifs <;> rfl

namespace CpuReadings

/-- the tick sees the real use of the host, and below the ceiling no scale-up is blocked by it -/
structure SeesRealUse (r : CpuReadings) : Prop where
  util : hostCpuUtilisation (readHostCpuSample r.prev) (readHostCpuSample r.cur) = r.use
  unblocked : ∀ {E : ScalingEngine} (c : Controller E) (env : TickEnv),
    c.lastHostCpu = some (readHostCpuSample r.prev) → env.hostCpu = some (readHostCpuSample r.cur) →
      r.use < c.cfg.hostCpuScaleUpCeiling →
        ∀ vm action, (vm, .blocked action .hostCpuCeiling) ∉ (c.tick env).2.1.filterMap reported

/-- the utilisation is the real one exactly when no guest tick passed, or all ticks were idle or all were busy, apart
from counters at the end of `u64` -/
theorem hostCpu_counts_once_iff (r : CpuReadings) : r.SeesRealUse ↔ r.CountsOnce := by
  refine ⟨fun h => r.utilisation_eq_use_iff.1 h.util, fun h => ?_⟩
  have hutil := r.utilisation_eq_use_iff.2 h
  refine ⟨hutil, ?_⟩
  intro E c env hlast hcur hlt vm action hmem
  have hceiling := ceiling_report hmem
  rw [beginTick_hostCpuUtil hlast hcur, hutil] at hceiling
  exact absurd hlt (not_lt.2 hceiling)

/-- a hypervisor at half load: of 200 ticks 100 were idle and 100 were guest time -/
def halfLoaded : CpuReadings where
  prev := { user := 0, nice := 0, system := 0, idle := 0, guest := some 0 }
  cur := { user := 100, nice := 0, system := 0, idle := 100, guest := some 100 }
  system_le := by decide
  idle_le := by decide
  iowait_le := by decide
  irq_le := by decide
  softirq_le := by decide
  steal_le := by decide
  guest_le := by decide
  guestNice_le := by decide
  guest_in_user := by decide
  guestNice_in_nice := by decide

/-- half load reads as two thirds -/
theorem half_load_reads_two_thirds : ¬ halfLoaded.SeesRealUse := by
  intro h
  have hcode : hostCpuUtilisation (readHostCpuSample halfLoaded.prev) (readHostCpuSample halfLoaded.cur) = 2 / 3 := by
    decide +kernel
  have hreal : halfLoaded.use = 1 / 2 := by decide +kernel
  have heq := h.util
  rw [hcode, hreal] at heq
  norm_num at heq

end CpuReadings

end IoThreadController
