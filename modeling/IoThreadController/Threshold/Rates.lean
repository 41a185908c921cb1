/-
True rates under a constant load.

A VM completes operations at a constant rate `R`. A tick starts at `start k`, reads the counter `read k` later, and
finishes its scale action `apply k` after that (`Schedule`). Evaluations stamp the reading with the start of the tick
and applied actions with their completion, so every sample has a lag, and a rate is off by the difference of the lags at
the two ends of its window.

- `windows_lag`: every window starts with the reading lag of an earlier poll, or with minus the lag of its action.
- `pending_at`: a validation that starts at poll `k` is due after its polls, unchanged.
- `true_rates_iff`: the baseline and the observed rate of a scale-up are both `R`, and a useless scale-up is reverted,
  exactly when the two lag differences vanish in the rounding.
- `observed_inflated`, `observed_exact_iff`: the observed rate is never too low, and exact only without any delay.
-/
import IoThreadController.Core.Rate
import IoThreadController.Threshold.Baseline

namespace IoThreadController

/-! ## Schedules -/

/-- when ticks start, how long after that the counter is read, and how long after the reading an action completes -/
structure Schedule where
  start : ℕ → Instant
  read : ℕ → ℕ
  apply : ℕ → ℕ
  ordered : ∀ k, start k + read k + apply k < start (k + 1)

theorem Schedule.start_lt (S : Schedule) {i k : ℕ} (h : i < k) : S.start i + S.read i + S.apply i < S.start k := by
  induction k with
  | zero => omega
  | succ k ih =>
    have hstep := S.ordered k
    rcases Nat.lt_succ_iff_lt_or_eq.1 h with hlt | rfl
    · calc S.start i + S.read i + S.apply i
          < S.start k := ih hlt
        _ ≤ S.start k + S.read k := Nat.le_add_right _ _
        _ ≤ S.start k + S.read k + S.apply k := Nat.le_add_right _ _
        _ < S.start (k + 1) := hstep
    · exact hstep

/-- the polls up to `last` of a VM whose counter is exactly `R` times the time of the reading -/
structure Steady (S : Schedule) (R : ℚ) (polls : ℕ → Poll) (last : ℕ) : Prop where
  now : ∀ k ≤ last, (polls k).context.now = S.start k
  total : ∀ k ≤ last, (ioTotal (polls k).status.perf : ℚ) = R * asSecs (S.start k + S.read k)
  applied : ∀ k ≤ last, ∀ at', (polls k).appliedAt = some at' → at' = S.start k + S.read k + S.apply k

/-- the exact rate between two samples -/
def exactRate (start stop : IoSample) : ℚ :=
  Core.meanRate (start.ioCount : ℚ) (asSecs start.at') (stop.ioCount : ℚ) (asSecs stop.at')

/-- how long after its stamp a reading of the load `R` was taken; negative when it was taken before -/
def lag (R : ℚ) (w : IoSample) : ℚ := w.ioCount / R - asSecs w.at'

theorem asSecs_add (x y : ℕ) : asSecs (x + y) = asSecs x + asSecs y := by
  unfold asSecs
  push_cast
  ring

theorem asSecs_lt {x y : ℕ} : asSecs x < asSecs y ↔ x < y := by
  have hpos : (0 : ℚ) < (nanosPerSec : ℚ) := by norm_num [nanosPerSec]
  unfold asSecs
  rw [div_lt_div_iff_of_pos_right hpos]
  exact Nat.cast_lt

theorem asSecs_inj {x y : ℕ} : asSecs x = asSecs y ↔ x = y := by
  constructor
  · intro h
    by_contra hne
    rcases Nat.lt_or_gt_of_ne hne with hlt | hgt
    · exact absurd h (asSecs_lt.2 hlt).ne
    · exact absurd h (asSecs_lt.2 hgt).ne'
  · rintro rfl
    rfl

/-- the rate that the engine computes is the exact rate, rounded -/
theorem iopsRate_exact {start stop : IoSample} (ht : start.at' < stop.at') (hc : start.ioCount ≤ stop.ioCount) :
    iopsRate start stop = asU64 (round (exactRate start stop)) := by
  rw [iopsRate_of_lt ht]
  have hspan : asSecs (stop.at' - start.at') = asSecs stop.at' - asSecs start.at' := by
    refine eq_sub_of_add_eq ?_
    calc asSecs (stop.at' - start.at') + asSecs start.at'
        = asSecs (stop.at' - start.at' + start.at') := (asSecs_add _ _).symm
      _ = asSecs stop.at' := congrArg asSecs (Nat.sub_add_cancel ht.le)
  unfold exactRate Core.meanRate
  rw [Nat.cast_sub hc, hspan]

theorem exactRate_eq {R : ℚ} (hR : 0 < R) (start stop : IoSample) :
    exactRate start stop =
      Core.meanRate (R * (asSecs start.at' + lag R start)) (asSecs start.at') (R * (asSecs stop.at' + lag R stop))
        (asSecs stop.at') := by
  have hcount (w : IoSample) : (w.ioCount : ℚ) = R * (asSecs w.at' + lag R w) := by
    unfold lag
    field_simp
    ring
  unfold exactRate
  rw [hcount start, hcount stop]

/-- a rate is off by the difference of the lags at the ends of its window -/
theorem exactRate_lag {R : ℚ} (hR : 0 < R) {start stop : IoSample} (h : start.at' < stop.at') :
    exactRate start stop = R + R * (lag R stop - lag R start) / (asSecs stop.at' - asSecs start.at') := by
  rw [exactRate_eq hR, Core.meanRate_lag (sub_pos.2 (asSecs_lt.2 h)).ne']

theorem asSecs_nonneg (x : ℕ) : 0 ≤ asSecs x := by
  unfold asSecs
  positivity

namespace Steady

variable {S : Schedule} {R : ℚ} {polls : ℕ → Poll} {last k : ℕ}

/-- an evaluation stamps its reading with the start of the tick -/
theorem sample_lag (h : Steady S R polls last) (hR : 0 < R) (hk : k ≤ last) :
    lag R (polls k).sample = asSecs (S.read k) ∧ (polls k).sample.at' = S.start k := by
  have hnow : (polls k).sample.at' = S.start k := h.now k hk
  have htotal : ((polls k).sample.ioCount : ℚ) = R * asSecs (S.start k + S.read k) := h.total k hk
  refine ⟨?_, hnow⟩
  unfold lag
  rw [htotal, hnow, asSecs_add, mul_div_cancel_left₀ _ hR.ne']
  ring

/-- an applied action stamps the reading with its completion -/
theorem applied_lag (h : Steady S R polls last) (hR : 0 < R) (hk : k ≤ last) {at' : Instant}
    (happ : (polls k).appliedAt = some at') : lag R ((polls k).appliedSample at') = -asSecs (S.apply k) ∧
      ((polls k).appliedSample at').at' = S.start k + S.read k + S.apply k := by
  have hat : ((polls k).appliedSample at').at' = S.start k + S.read k + S.apply k := h.applied k hk at' happ
  have htotal : (((polls k).appliedSample at').ioCount : ℚ) = R * asSecs (S.start k + S.read k) := h.total k hk
  refine ⟨?_, hat⟩
  unfold lag
  rw [htotal, hat, asSecs_add (S.start k + S.read k), mul_div_cancel_left₀ _ hR.ne']
  ring

/-- the counter never decreases -/
theorem total_mono (h : Steady S R polls last) (hR : 0 < R) {i : ℕ} (hik : i < k) (hk : k ≤ last) :
    ioTotal (polls i).status.perf ≤ ioTotal (polls k).status.perf := by
  have hread : S.start i + S.read i < S.start k + S.read k := by
    calc S.start i + S.read i
        ≤ S.start i + S.read i + S.apply i := Nat.le_add_right _ _
      _ < S.start k := S.start_lt hik
      _ ≤ S.start k + S.read k := Nat.le_add_right _ _
  have hle : (ioTotal (polls i).status.perf : ℚ) ≤ ioTotal (polls k).status.perf := by
    calc (ioTotal (polls i).status.perf : ℚ)
        = R * asSecs (S.start i + S.read i) := h.total i (hik.le.trans hk)
      _ ≤ R * asSecs (S.start k + S.read k) := mul_le_mul_of_nonneg_left (asSecs_lt.2 hread).le hR.le
      _ = ioTotal (polls k).status.perf := (h.total k hk).symm
  exact_mod_cast hle

end Steady

/-! ## The run of a schedule -/

namespace ThresholdEngine

variable (T : ThresholdEngine) (polls : ℕ → Poll)

/-- the state before poll `k` -/
def stateAt : ℕ → InstanceState
  | 0 => .new
  | k + 1 => T.driveStep (stateAt k) (polls k)

theorem stateAt_run (k : ℕ) :
    T.stateAt polls k = Core.run T.drive .new ((List.range k).map fun i => .poll (polls i)) := by
  induction k with
  | zero => rfl
  | succ k ih => rw [List.range_succ, List.map_append, Core.run_append, ← ih]; rfl

theorem stateAt_tidy (k : ℕ) : (T.stateAt polls k).Tidy := by
  induction k with
  | zero => exact InstanceState.new_tidy
  | succ k ih => exact driveStep_tidy ih (polls k)

variable {T polls}

theorem windows_source {k : ℕ} {w : IoSample} (h : (T.stateAt polls k).HasWindow w) :
    (∃ i < k, w = (polls i).sample) ∨
      ∃ i < k, ∃ at', (polls i).appliedAt = some at' ∧ w = (polls i).appliedSample at' := by
  induction k with
  | zero =>
    rcases h with h | h
    · cases h
    · cases h
  | succ k ih =>
    rcases driveStep_windows (T.stateAt_tidy polls k) h with ⟨hold, -⟩ | ⟨rfl, -⟩ | ⟨at', happ, rfl, -⟩
    · rcases ih hold with ⟨i, hi, hw⟩ | ⟨i, hi, hw⟩
      · exact Or.inl ⟨i, by omega, hw⟩
      · exact Or.inr ⟨i, by omega, hw⟩
    · exact Or.inl ⟨k, by omega, rfl⟩
    · exact Or.inr ⟨k, by omega, at', happ, rfl⟩

/-- a validation that starts at poll `k` counts down and keeps everything else until it is due -/
theorem pending_at {k : ℕ} {pending : PendingValidation}
    (h : (T.stateAt polls (k + 1)).pendingValidation = some pending) {m : ℕ} (hm : m ≤ pending.pollsRemaining) :
    (T.stateAt polls (k + 1 + m)).pendingValidation =
      some { pending with pollsRemaining := pending.pollsRemaining - m } := by
  induction m with
  | zero => exact h
  | succ m ih =>
    have hprev := ih (by omega)
    have hnext : T.stateAt polls (k + 1 + (m + 1)) =
        T.driveStep (T.stateAt polls (k + 1 + m)) (polls (k + 1 + m)) := rfl
    rcases driveStep_cases T (T.stateAt polls (k + 1 + m)) (polls (k + 1 + m)) with
      ⟨q, hq, -, he⟩ | ⟨q, hd, -⟩ | ⟨hn, -⟩ | ⟨at', hn, -⟩ | ⟨at', hn, -⟩
    · rw [hprev] at hq
      obtain rfl := Option.some.inj hq
      rw [hnext, he]
      simp only [Option.some.injEq, PendingValidation.mk.injEq, true_and]
      omega
    · obtain ⟨hq, hzero⟩ := hd
      rw [hprev] at hq
      obtain rfl := Option.some.inj hq
      simp only at hzero
      omega
    · rw [hprev] at hn; simp at hn
    · rw [hprev] at hn; simp at hn
    · rw [hprev] at hn; simp at hn

/-! ## Rates of one validated scale-up -/

section Validated

variable {S : Schedule} {R : ℚ} {last k : ℕ} {w : IoSample}

/-- every window of a steady run starts at an evaluation or at an applied action, with the lag of that poll -/
theorem windows_lag (hs : Steady S R polls last) (hR : 0 < R) (hk : k ≤ last) (h : (T.stateAt polls k).HasWindow w) :
    ∃ i < k, lag R w = asSecs (S.read i) ∨ lag R w = -asSecs (S.apply i) := by
  rcases windows_source h with ⟨i, hi, rfl⟩ | ⟨i, hi, at', happ, rfl⟩
  · exact ⟨i, hi, Or.inl (hs.sample_lag hR (hi.le.trans hk)).1⟩
  · exact ⟨i, hi, Or.inr (hs.applied_lag hR (hi.le.trans hk) happ).1⟩

/-- the validation window starts with minus the lag of the action and ends with the reading lag of the verdict -/
theorem observed_lags (hs : Steady S R polls last) (hR : 0 < R) {at' : Instant} (happ : (polls k).appliedAt = some at')
    {j : ℕ} (hkj : k < j) (hj : j ≤ last) :
    lag R ((polls k).appliedSample at') = -asSecs (S.apply k) ∧ lag R (polls j).sample = asSecs (S.read j) ∧
      ((polls k).appliedSample at').at' < (polls j).sample.at' := by
  obtain ⟨hlagk, hatk⟩ := hs.applied_lag hR (hkj.le.trans hj) happ
  obtain ⟨hlagj, hatj⟩ := hs.sample_lag hR hj
  refine ⟨hlagk, hlagj, ?_⟩
  rw [hatk, hatj]
  exact S.start_lt hkj

/-- refresh time and actuation time never deflate the observed rate -/
theorem observed_inflated (hs : Steady S R polls last) (hR : 0 < R) {at' : Instant}
    (happ : (polls k).appliedAt = some at') {j : ℕ} (hkj : k < j) (hj : j ≤ last) :
    R ≤ exactRate ((polls k).appliedSample at') (polls j).sample := by
  obtain ⟨hlagk, hlagj, hlt⟩ := observed_lags hs hR happ hkj hj
  have hread := asSecs_nonneg (S.read j)
  have happly := asSecs_nonneg (S.apply k)
  rw [exactRate_eq hR, Core.le_meanRate_iff hR (asSecs_lt.2 hlt), hlagk, hlagj]
  linarith

/-- any refresh time before the verdict and any actuation time inflate it -/
theorem observed_exact_iff (hs : Steady S R polls last) (hR : 0 < R) {at' : Instant}
    (happ : (polls k).appliedAt = some at') {j : ℕ} (hkj : k < j) (hj : j ≤ last) :
    exactRate ((polls k).appliedSample at') (polls j).sample = R ↔ S.apply k = 0 ∧ S.read j = 0 := by
  obtain ⟨hlagk, hlagj, hlt⟩ := observed_lags hs hR happ hkj hj
  have hread := asSecs_nonneg (S.read j)
  have happly := asSecs_nonneg (S.apply k)
  have hzero : asSecs 0 = 0 := by simp [asSecs]
  rw [exactRate_eq hR, Core.meanRate_eq_iff hR.ne' (sub_pos.2 (asSecs_lt.2 hlt)).ne', hlagk, hlagj]
  constructor
  · intro h
    refine ⟨asSecs_inj.1 ?_, asSecs_inj.1 ?_⟩
    · rw [hzero]; linarith
    · rw [hzero]; linarith
  · intro hzeros
    obtain ⟨hb, ha⟩ := hzeros
    rw [hb, ha, hzero, neg_zero]

end Validated

/-- a lag difference of `delay` seconds over a window of `span` seconds disappears when the rate is rounded -/
def Negligible (R delay span : ℚ) : Prop := asU64 (round (R + R * delay / span)) = asU64 (round R)

instance (R delay span : ℚ) : Decidable (Negligible R delay span) := by unfold Negligible; infer_instance

/-- the verdict on a scale-up to `t` that is applied in poll `k` falls in this poll -/
def verdictAt (T : ThresholdEngine) (k t : ℕ) : ℕ := k + 1 + T.validationSamplePolls t

/-- both rates of the scale-up from poll `k` to its verdict at poll `j` are `R`, up to rounding to an integer, and the
scale-up is reverted when `R` is large enough for its gain to matter -/
structure TrueRates (T : ThresholdEngine) (R : ℚ) (polls : ℕ → Poll) (k j : ℕ) (pending : PendingValidation) :
    Prop where
  baseline : pending.baselineIops = asU64 (round R)
  observed : iopsRate pending.validationStart (polls j).sample = asU64 (round R)
  reverted : 2 < R * T.cfg.scaleUpMinGain →
    T.decision (T.stateAt polls j) (polls j) = .revert (polls k).status.threadCount

/-- a scale-up that gained nothing on a positive baseline is reverted -/
theorem revert_of_equal (pending : PendingValidation) {util : ℚ} {t : ℕ} (hgain : 0 < T.cfg.scaleUpMinGain)
    (ha : pending.action = .up t) (hbase : 0 < pending.baselineIops) :
    T.validationRevertTarget pending.baselineIops util pending = some pending.baselineThreadCount := by
  have hlt : (pending.baselineIops : ℚ) < pending.baselineIops * (1 + T.cfg.scaleUpMinGain) := by
    have hpos : (0 : ℚ) < pending.baselineIops := by exact_mod_cast hbase
    nlinarith
  unfold validationRevertTarget
  rw [ha]
  exact if_pos ⟨hgain, hbase, hlt⟩

/-- the gain is at most one, so a load that matters is a positive integer after rounding -/
theorem round_large {R : ℚ} (hgain : T.cfg.scaleUpMinGain ≤ 1) (hR : 0 < R) (h : 2 < R * T.cfg.scaleUpMinGain) :
    0 < asU64 (round R) := by
  have hload : 2 < R := by
    calc 2 < R * T.cfg.scaleUpMinGain := h
      _ ≤ R * 1 := mul_le_mul_of_nonneg_left hgain hR.le
      _ = R := mul_one R
  have htwo : (2 : ℤ) ≤ round R := by
    rw [round_eq, Int.le_floor]
    push_cast
    linarith
  unfold asU64 u64Max
  omega

/-- for every schedule of a constant load and every validated scale-up with a measured baseline: the baseline and the
observed rate are both the load, and a useless scale-up is reverted, exactly when the lag differences over the baseline
window and over the validation window disappear in the rounding -/
theorem true_rates_iff (T : ThresholdEngine) (S : Schedule) (R : ℚ) (polls : ℕ → Poll) (k t : ℕ) (w : IoSample)
    (pending : PendingValidation) (hs : Steady S R polls (T.verdictAt k t)) (hR : 0 < R)
    (hgain : 0 < T.cfg.scaleUpMinGain) (hw : (T.stateAt polls k).openWindow = some w) (hpos : w.at' < S.start k)
    (hup : T.decision (T.stateAt polls k) (polls k) = .up t)
    (hp : (T.stateAt polls (k + 1)).pendingValidation = some pending) :
    TrueRates T R polls k (T.verdictAt k t) pending ↔
      Negligible R (asSecs (S.read k) - lag R w) (asSecs (S.start k) - asSecs w.at') ∧
      Negligible R (asSecs (S.read (T.verdictAt k t)) + asSecs (S.apply k))
        (asSecs (S.start (T.verdictAt k t)) - asSecs (S.start k + S.read k + S.apply k)) := by
  have hnone : (T.stateAt polls k).pendingValidation = none := (evaluate_up.1 hup).1.1
  obtain ⟨-, haction, hcount, hbase, at', happ, hstart, hpolls⟩ := pending_started hnone hp
  rw [hup] at hpolls
  have hverdict : k + 1 + pending.pollsRemaining = T.verdictAt k t := by rw [hpolls]; rfl
  have hkj : k < T.verdictAt k t := by unfold verdictAt; omega
  -- the baseline is the rate of the open window
  have hbaseline : pending.baselineIops =
      asU64 (round (R + R * (asSecs (S.read k) - lag R w) / (asSecs (S.start k) - asSecs w.at'))) := by
    obtain ⟨hlag, hat⟩ := hs.sample_lag hR hkj.le
    have hlt : w.at' < (polls k).sample.at' := by rw [hat]; exact hpos
    have hle : w.ioCount ≤ (polls k).sample.ioCount := by
      rcases windows_source (InstanceState.openWindow_hasWindow hw) with ⟨i, hi, rfl⟩ | ⟨i, hi, u, -, rfl⟩
      · exact hs.total_mono hR hi hkj.le
      · exact hs.total_mono hR hi hkj.le
    rw [hbase, baselinePhase_rate hw, iopsRate_exact hlt hle, exactRate_lag hR hlt, hlag, hat]
  -- the observed rate is the rate since the action was applied
  have hobserved : iopsRate pending.validationStart (polls (T.verdictAt k t)).sample =
      asU64 (round (R + R * (asSecs (S.read (T.verdictAt k t)) + asSecs (S.apply k)) /
        (asSecs (S.start (T.verdictAt k t)) - asSecs (S.start k + S.read k + S.apply k)))) := by
    obtain ⟨hlagk, hlagj, hlt⟩ := observed_lags hs hR happ hkj le_rfl
    rw [hstart, iopsRate_exact hlt (hs.total_mono hR hkj le_rfl), exactRate_lag hR hlt, hlagk, hlagj,
      (hs.applied_lag hR hkj.le happ).2, (hs.sample_lag hR le_rfl).2, sub_neg_eq_add]
  constructor
  · intro h
    exact ⟨hbaseline.symm.trans h.baseline, hobserved.symm.trans h.observed⟩
  intro hexact
  obtain ⟨hnb, hno⟩ := hexact
  refine ⟨hbaseline.trans hnb, hobserved.trans hno, ?_⟩
  intro hlarge
  have hpositive : 0 < pending.baselineIops := by
    rw [hbaseline.trans hnb]
    exact round_large (ThresholdConfig.validate_ok T.valid).2.1.2 hR hlarge
  have hsame : iopsRate pending.validationStart (polls (T.verdictAt k t)).sample = pending.baselineIops := by
    calc iopsRate pending.validationStart (polls (T.verdictAt k t)).sample
        = asU64 (round R) := hobserved.trans hno
      _ = pending.baselineIops := (hbaseline.trans hnb).symm
  have hdue := pending_at hp (le_refl pending.pollsRemaining)
  rw [hverdict, Nat.sub_self] at hdue
  refine evaluate_revert.2 ⟨_, ⟨hdue, rfl⟩, ?_⟩
  rw [← hcount]
  have hverdictRate : iopsRate pending.validationStart
      (sampleOf (polls (T.verdictAt k t)).status (polls (T.verdictAt k t)).context) = pending.baselineIops := hsame
  dsimp only
  rw [hverdictRate]
  exact revert_of_equal { pending with pollsRemaining := 0 } hgain (haction.trans hup) hpositive

/-! ## A delayed actuation -/

/-- a tick every ten seconds, with immediate readings and an actuation that takes `delay` -/
def tenSeconds (delay : ℕ) (h : delay < fromSecs 10) : Schedule where
  start k := fromSecs (10 * k)
  read _ := 0
  apply _ := delay
  ordered k := by
    have hdelay : (delay : ℕ) < 10 * 1000000000 := h
    have hnext : 10 * k * 1000000000 + 0 + delay < 10 * (k + 1) * 1000000000 := by omega
    exact hnext

/-- a hundred operations per second and saturated workers; only the scale-up of poll 1 is applied -/
def hundredPerSecond (delay k : ℕ) : Poll where
  status := { threadCount := if k ≤ 1 then 2 else 3, perThreadUtil := if k = 0 then 1 / 2 else 1,
              perf := some { readIoCount := 1000 * k } }
  context := ⟨fromSecs (10 * k), 2, 8, 0, {}, 0⟩
  appliedAt := if k = 1 then some (fromSecs (10 * k) + delay) else none

theorem hundredPerSecond_steady (delay : ℕ) (h : delay < fromSecs 10) :
    Steady (tenSeconds delay h) 100 (hundredPerSecond delay) 4 := by
  refine ⟨fun _ _ => rfl, ?_, ?_⟩
  · intro k hk
    interval_cases k <;> norm_num [hundredPerSecond, tenSeconds, ioTotal, InstancePerfSample.totalIoCount, satAdd, u64Max,
      asSecs, fromSecs, nanosPerSec]
  · intro k _ at' happ
    simp only [hundredPerSecond] at happ
    split_ifs at happ
    change at' = fromSecs (10 * k) + 0 + delay
    rw [Nat.add_zero]
    exact (Option.some.inj happ).symm

/-- without a delay both rates are a hundred and the useless scale-up is reverted -/
theorem true_rates_undelayed :
    TrueRates standard 100 (hundredPerSecond 0) 1 (standard.verdictAt 1 3) ⟨.up 3, 2, 100, ⟨1000, fromSecs 10⟩, 2⟩ :=
  (true_rates_iff standard (tenSeconds 0 (by decide)) 100 (hundredPerSecond 0) 1 3 ⟨0, 0⟩ _
    (hundredPerSecond_steady 0 (by decide)) (by norm_num) (by decide +kernel) (by decide +kernel) (by decide)
    (by decide +kernel) (by decide +kernel)).2 ⟨by decide +kernel, by decide +kernel⟩

/-- an actuation of two seconds inflates the observed rate to 107, above the required gain: the scale-up stays -/
theorem delayed_actuation_inflates :
    Steady (tenSeconds (fromSecs 2) (by decide)) 100 (hundredPerSecond (fromSecs 2)) (standard.verdictAt 1 3) ∧
    2 < (100 : ℚ) * standard.cfg.scaleUpMinGain ∧
    (standard.stateAt (hundredPerSecond (fromSecs 2)) 1).openWindow = some ⟨0, 0⟩ ∧
    standard.decision (standard.stateAt (hundredPerSecond (fromSecs 2)) 1) (hundredPerSecond (fromSecs 2) 1) = .up 3 ∧
    (standard.stateAt (hundredPerSecond (fromSecs 2)) 2).pendingValidation =
      some ⟨.up 3, 2, 100, ⟨1000, fromSecs 12⟩, 2⟩ ∧
    iopsRate ⟨1000, fromSecs 12⟩ (hundredPerSecond (fromSecs 2) 4).sample = 107 ∧
    standard.decision (standard.stateAt (hundredPerSecond (fromSecs 2)) 4) (hundredPerSecond (fromSecs 2) 4) = .none ∧
    ¬ TrueRates standard 100 (hundredPerSecond (fromSecs 2)) 1 (standard.verdictAt 1 3)
        ⟨.up 3, 2, 100, ⟨1000, fromSecs 12⟩, 2⟩ := by
  have hkept : standard.decision (standard.stateAt (hundredPerSecond (fromSecs 2)) 4) (hundredPerSecond (fromSecs 2) 4) =
      .none := by decide +kernel
  refine ⟨hundredPerSecond_steady _ _, by decide +kernel, by decide +kernel, by decide +kernel, by decide +kernel,
    by decide +kernel, hkept, fun h => ?_⟩
  have hrevert := h.reverted (by decide +kernel)
  change standard.decision (standard.stateAt (hundredPerSecond (fromSecs 2)) 4) (hundredPerSecond (fromSecs 2) 4) = _
    at hrevert
  rw [hkept] at hrevert
  simp at hrevert

end ThresholdEngine

end IoThreadController
