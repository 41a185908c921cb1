/-
The thread-count bounds of the controller, and what the engine proposes for pools inside and outside of them.

- `scaleDownTargetBy_le`: when the scale-down target is within a maximum, for any rounding of the float operations.
- `scale_down_target_least`: in exact arithmetic the target is the least safe pool within the step limit.
- `bounds_kept_iff`: in the source's `f64` arithmetic a proposal of `evaluate` stays within the bounds exactly when the
  scale-up branch is not taken more than one worker below the minimum, and the scale-down branch is not taken from above the
  maximum with a rounded load or a step limit that keeps the target there.
-/
import IoThreadController.Threshold.Spec

namespace IoThreadController.ThresholdEngine

variable {T : ThresholdEngine} {s : InstanceState} {status : InstanceStatus} {context : EngineTickContext}

/-! ## The scale-down target -/

/-- workers needed to keep the average load at the up threshold, with every float result passed through `fl` -/
def requiredWorkersBy (T : ThresholdEngine) (fl : ℚ → ℚ) (util : ℚ) (n : ℕ) : ℕ :=
  min (max ⌈fl (fl (util * n) / T.cfg.scaleUpThreshold)⌉ 1).toNat u32Max

/-- workers needed to keep the average load at the up threshold -/
def requiredWorkers (T : ThresholdEngine) (util : ℚ) (n : ℕ) : ℕ := T.requiredWorkersBy id util n

theorem scaleDownTargetBy_eq (T : ThresholdEngine) (fl : ℚ → ℚ) (util : ℚ) (n least : ℕ) :
    T.scaleDownTargetBy fl util n least =
      if n ≤ max (T.requiredWorkersBy fl util n) least then n
      else if T.cfg.maxScaleDownStep = 0 then max (T.requiredWorkersBy fl util n) least
      else max (max (T.requiredWorkersBy fl util n) least) (max (n - T.cfg.maxScaleDownStep) least) := rfl

theorem scaleDownTarget_eq (T : ThresholdEngine) (util : ℚ) (n least : ℕ) :
    T.scaleDownTarget util n least =
      if n ≤ max (T.requiredWorkers util n) least then n
      else if T.cfg.maxScaleDownStep = 0 then max (T.requiredWorkers util n) least
      else max (max (T.requiredWorkers util n) least) (max (n - T.cfg.maxScaleDownStep) least) :=
  scaleDownTargetBy_eq T id util n least

/-- `m` workers are enough exactly when the rounded quotient of load and threshold says so -/
theorem requiredWorkersBy_le (T : ThresholdEngine) (fl : ℚ → ℚ) (util : ℚ) (n : ℕ) {m : ℕ} (hpos : 0 < m)
    (hm : m < u32Max) : T.requiredWorkersBy fl util n ≤ m ↔ fl (fl (util * n) / T.cfg.scaleUpThreshold) ≤ m := by
  have hone : (1 : ℤ) ≤ m := by exact_mod_cast hpos
  calc T.requiredWorkersBy fl util n ≤ m
      ↔ (max ⌈fl (fl (util * n) / T.cfg.scaleUpThreshold)⌉ 1).toNat ≤ m := by
        unfold requiredWorkersBy
        constructor
        · intro h
          rcases min_le_iff.1 h with h | h
          · exact h
          · omega
        · intro h
          exact min_le_iff.2 (Or.inl h)
    _ ↔ ⌈fl (fl (util * n) / T.cfg.scaleUpThreshold)⌉ ≤ (m : ℤ) := by
        rw [Int.toNat_le, max_le_iff]
        exact ⟨fun h => h.1, fun h => ⟨h, hone⟩⟩
    _ ↔ fl (fl (util * n) / T.cfg.scaleUpThreshold) ≤ m := by
        rw [Int.ceil_le]; norm_cast

/-- the load of `n` workers fits `m` of them exactly when it is at most the threshold on each -/
theorem requiredWorkers_le (T : ThresholdEngine) (util : ℚ) (n : ℕ) {m : ℕ} (hpos : 0 < m) (hm : m < u32Max) :
    T.requiredWorkers util n ≤ m ↔ util * n ≤ T.cfg.scaleUpThreshold * m := by
  calc T.requiredWorkers util n ≤ m
      ↔ util * n / T.cfg.scaleUpThreshold ≤ m := requiredWorkersBy_le T id util n hpos hm
    _ ↔ util * n ≤ T.cfg.scaleUpThreshold * m := by
        rw [div_le_iff₀ T.threshold_pos, mul_comm (m : ℚ)]

theorem scaleDownTarget_le_self (T : ThresholdEngine) (util : ℚ) (n least : ℕ) : T.scaleDownTarget util n least ≤ n := by
  rw [scaleDownTarget_eq]
  split_ifs <;> omega

theorem least_le_scaleDownTargetBy {fl : ℚ → ℚ} {util : ℚ} {n least : ℕ} (h : T.scaleDownTargetBy fl util n least < n) :
    least ≤ T.scaleDownTargetBy fl util n least := by
  rw [scaleDownTargetBy_eq] at h ⊢
  split_ifs at h ⊢ <;> omega

theorem least_le_scaleDownTarget {util : ℚ} {n least : ℕ} (h : T.scaleDownTarget util n least < n) :
    least ≤ T.scaleDownTarget util n least := least_le_scaleDownTargetBy h

/-- a scale-down target is at most `m` when the pool already is, or when both the load quotient and the step limit
allow it -/
theorem scaleDownTargetBy_le {fl : ℚ → ℚ} {util : ℚ} {n least m : ℕ} (hlt : T.scaleDownTargetBy fl util n least < n)
    (hpos : 0 < least) (hle : least ≤ m) (hn : n ≤ u32Max) :
    T.scaleDownTargetBy fl util n least ≤ m ↔
      n ≤ m ∨ fl (fl (util * n) / T.cfg.scaleUpThreshold) ≤ m ∧
        (T.cfg.maxScaleDownStep = 0 ∨ n ≤ m + T.cfg.maxScaleDownStep) := by
  by_cases hnm : n ≤ m
  · exact ⟨fun _ => Or.inl hnm, fun _ => by omega⟩
  have hreq := requiredWorkersBy_le T fl util n (by omega : 0 < m) (by omega)
  rw [← hreq]
  rw [scaleDownTargetBy_eq] at hlt ⊢
  split_ifs at hlt ⊢ with h1 h2
  · omega
  · constructor
    · intro h
      exact Or.inr ⟨by omega, Or.inl h2⟩
    · intro h
      rcases h with h | ⟨h, -⟩
      · omega
      · omega
  · constructor
    · intro h
      exact Or.inr ⟨by omega, Or.inr (by omega)⟩
    · intro h
      rcases h with h | ⟨h, h0 | hstep⟩
      · omega
      · exact absurd h0 h2
      · omega

/-- in exact arithmetic the load quotient is the load on each of the `m` workers -/
theorem scaleDownTarget_le {util : ℚ} {n least m : ℕ} (hlt : T.scaleDownTarget util n least < n) (hpos : 0 < least)
    (hle : least ≤ m) (hn : n ≤ u32Max) :
    T.scaleDownTarget util n least ≤ m ↔
      n ≤ m ∨ util * n ≤ T.cfg.scaleUpThreshold * m ∧ (T.cfg.maxScaleDownStep = 0 ∨ n ≤ m + T.cfg.maxScaleDownStep) := by
  have hload : util * n / T.cfg.scaleUpThreshold ≤ m ↔ util * n ≤ T.cfg.scaleUpThreshold * m := by
    rw [div_le_iff₀ T.threshold_pos, mul_comm (m : ℚ)]
  rw [← hload]
  exact scaleDownTargetBy_le hlt hpos hle hn

/-! ## The smallest safe pool -/

/-- a smaller pool of at least `least` workers that carries the load at no more than the threshold -/
structure SafePool (T : ThresholdEngine) (util : ℚ) (n least k : ℕ) : Prop where
  least_le : least ≤ k
  lt : k < n
  load : util * n ≤ T.cfg.scaleUpThreshold * k

/-- a scale-down target is safe, and within the step limit -/
theorem scaleDownTarget_safe {util : ℚ} {n least : ℕ} (hlt : T.scaleDownTarget util n least < n) (hpos : 0 < least)
    (hn : n ≤ u32Max) :
    T.SafePool util n least (T.scaleDownTarget util n least) ∧
      (T.cfg.maxScaleDownStep = 0 ∨ n - T.scaleDownTarget util n least ≤ T.cfg.maxScaleDownStep) := by
  have hleast := least_le_scaleDownTarget hlt
  rcases (scaleDownTarget_le hlt hpos hleast hn).1 le_rfl with hle | ⟨hload, hstep⟩
  · omega
  · exact ⟨⟨hleast, hlt, hload⟩, by omega⟩

/-- the pool stays as it is exactly when no smaller one is safe -/
theorem scaleDownTarget_eq_self {util : ℚ} {n least : ℕ} (hpos : 0 < least) (hn : n ≤ u32Max) :
    T.scaleDownTarget util n least = n ↔ ∀ k, ¬ T.SafePool util n least k := by
  constructor
  · rintro h k ⟨hk, hkn, hload⟩
    have hreq : T.requiredWorkers util n ≤ k := (requiredWorkers_le T util n (by omega) (by omega)).2 hload
    rw [scaleDownTarget_eq] at h
    split_ifs at h <;> omega
  · intro h
    by_contra hne
    exact h _ (scaleDownTarget_safe (lt_of_le_of_ne (scaleDownTarget_le_self T util n least) hne) hpos hn).1

/-- for every threshold, utilisation, pool, minimum and step limit: the pool itself without a safe smaller one, else the
least safe one within the step limit; then the load fits, the step is kept, and a step limit does not stop progress -/
theorem scale_down_target_least (T : ThresholdEngine) (util : ℚ) (n least : ℕ) (hn : n ≤ u32Max) (hpos : 0 < least) :
    ((∀ k, ¬ T.SafePool util n least k) → T.scaleDownTarget util n least = n) ∧
    ((∃ k, T.SafePool util n least k) →
      IsLeast {k | T.SafePool util n least k ∧ (T.cfg.maxScaleDownStep = 0 ∨ n - k ≤ T.cfg.maxScaleDownStep)}
        (T.scaleDownTarget util n least) ∧
      util * n / T.scaleDownTarget util n least ≤ T.cfg.scaleUpThreshold ∧ T.scaleDownTarget util n least < n) := by
  refine ⟨(scaleDownTarget_eq_self hpos hn).2, ?_⟩
  rintro ⟨k, hk⟩
  have hlt : T.scaleDownTarget util n least < n :=
    lt_of_le_of_ne (scaleDownTarget_le_self T util n least) fun heq => (scaleDownTarget_eq_self hpos hn).1 heq k hk
  obtain ⟨hsafe, hstep⟩ := scaleDownTarget_safe hlt hpos hn
  refine ⟨⟨⟨hsafe, hstep⟩, ?_⟩, ?_, hlt⟩
  · rintro m ⟨⟨hm, -, hload⟩, hstep'⟩
    exact (scaleDownTarget_le hlt hpos hm hn).2 (Or.inr ⟨hload, by omega⟩)
  · have htarget : (0 : ℚ) < T.scaleDownTarget util n least := by
      exact_mod_cast hpos.trans_le hsafe.least_le
    exact (div_le_iff₀ htarget).2 hsafe.load

/-- a pool of twelve at a tenth of its load, above a minimum of two -/
theorem scale_down_target_least_twelve :
    ((∀ k, ¬ standard.SafePool (1 / 10) 12 2 k) → standard.scaleDownTarget (1 / 10) 12 2 = 12) ∧
    ((∃ k, standard.SafePool (1 / 10) 12 2 k) →
      IsLeast {k | standard.SafePool (1 / 10) 12 2 k ∧
        (standard.cfg.maxScaleDownStep = 0 ∨ 12 - k ≤ standard.cfg.maxScaleDownStep)}
        (standard.scaleDownTarget (1 / 10) 12 2) ∧
      (1 / 10 : ℚ) * (12 : ℕ) / standard.scaleDownTarget (1 / 10) 12 2 ≤ standard.cfg.scaleUpThreshold ∧
        standard.scaleDownTarget (1 / 10) 12 2 < 12) :=
  scale_down_target_least standard (1 / 10) 12 2 (by decide) (by decide)

/-! ## Proposals and bounds -/

/-- the pools from which the engine reaches the bounds: a saturated one is at most one worker below the minimum, an
idle one is below the maximum or small enough in load quotient, as `f64` division rounds it, and step limit to get there
at once -/
def FitsBounds (T : ThresholdEngine) (s : InstanceState) (status : InstanceStatus) (context : EngineTickContext) :
    Prop :=
  (T.UpReached s status context → context.minThreadCount ≤ status.threadCount + 1) ∧
  (T.DownReachedWith (T.scaleDownTargetF64 status.perThreadUtil status.threadCount context.minThreadCount) s status
      context →
    status.threadCount ≤ context.maxThreadCount ∨
      roundF64 (roundF64 (status.perThreadUtil * status.threadCount) / T.cfg.scaleUpThreshold) ≤
          context.maxThreadCount ∧
        (T.cfg.maxScaleDownStep = 0 ∨ status.threadCount ≤ context.maxThreadCount + T.cfg.maxScaleDownStep))

/-- for every state, status and context: the proposals stay within the bounds exactly when the pool fits them -/
theorem bounds_kept_iff (T : ThresholdEngine) (s : InstanceState) (status : InstanceStatus)
    (context : EngineTickContext) (hpos : 0 < context.minThreadCount)
    (hle : context.minThreadCount ≤ context.maxThreadCount) (hn : status.threadCount ≤ u32Max) :
    (∀ t, ((T.evaluateF64 s status context).2 = .up t ∨ (T.evaluateF64 s status context).2 = .down t) →
      context.minThreadCount ≤ t ∧ t ≤ context.maxThreadCount) ↔ T.FitsBounds s status context := by
  constructor
  · intro h
    refine ⟨?_, ?_⟩
    · intro hu
      exact (h (status.threadCount + 1) (Or.inl (evaluateWith_up.2 ⟨hu, rfl⟩))).1
    · intro hd
      have ht := (h _ (Or.inr (evaluateWith_down.2 ⟨hd, rfl⟩))).2
      exact (scaleDownTargetBy_le hd.2.2.1 hpos hle hn).1 ht
  · intro hfits t h
    obtain ⟨hup, hdown⟩ := hfits
    rcases h with h | h
    · obtain ⟨hu, rfl⟩ := evaluateWith_up.1 h
      have hmax := hu.2.1.2.1
      exact ⟨hup hu, by omega⟩
    · obtain ⟨hd, rfl⟩ := evaluateWith_down.1 h
      exact ⟨least_le_scaleDownTargetBy hd.2.2.1, (scaleDownTargetBy_le hd.2.2.1 hpos hle hn).2 (hdown hd)⟩

/-- a scale-up threshold of 80 percent, as an `f64` -/
def eightyPercent : ThresholdEngine := { cfg := { scaleUpThreshold := roundF64 (80 / 100) }, valid := by decide +kernel }

/-- an idle pool of twelve at a fifth of its load: three workers would carry it at the threshold, but the rounded quotient
is above three, and the pool is told to shrink to four where three is the maximum -/
theorem bounds_kept_iff_twelve :
    ((∀ t, ((eightyPercent.evaluateF64 { lowUtilPolls := 2 } { threadCount := 12, perThreadUtil := roundF64 (1 / 5) }
        ⟨0, 1, 3, 0, {}, 0⟩).2 = .up t ∨
      (eightyPercent.evaluateF64 { lowUtilPolls := 2 } { threadCount := 12, perThreadUtil := roundF64 (1 / 5) }
        ⟨0, 1, 3, 0, {}, 0⟩).2 = .down t) → 1 ≤ t ∧ t ≤ 3) ↔
      eightyPercent.FitsBounds { lowUtilPolls := 2 } { threadCount := 12, perThreadUtil := roundF64 (1 / 5) }
        ⟨0, 1, 3, 0, {}, 0⟩) ∧
    roundF64 (1 / 5) * 12 ≤ eightyPercent.cfg.scaleUpThreshold * 3 ∧
    (eightyPercent.evaluateF64 { lowUtilPolls := 2 } { threadCount := 12, perThreadUtil := roundF64 (1 / 5) }
      ⟨0, 1, 3, 0, {}, 0⟩).2 = .down 4 :=
  ⟨bounds_kept_iff eightyPercent { lowUtilPolls := 2 } { threadCount := 12, perThreadUtil := roundF64 (1 / 5) }
    ⟨0, 1, 3, 0, {}, 0⟩ (by decide) (by decide) (by decide), by decide +kernel, by decide +kernel⟩

/-- a saturated pool of one worker under a minimum of three is told to grow to two -/
theorem up_below_minimum :
    ¬ ∀ t, ((standard.evaluateF64 .new { threadCount := 1, perThreadUtil := 1 } ⟨0, 3, 8, 0, {}, 0⟩).2 = .up t ∨
      (standard.evaluateF64 .new { threadCount := 1, perThreadUtil := 1 } ⟨0, 3, 8, 0, {}, 0⟩).2 = .down t) →
      3 ≤ t ∧ t ≤ 8 := by
  intro h
  have hup : (standard.evaluateF64 .new { threadCount := 1, perThreadUtil := 1 } ⟨0, 3, 8, 0, {}, 0⟩).2 = .up 2 := by
    decide +kernel
  have hbad := (h 2 (Or.inl hup)).1
  omega

end IoThreadController.ThresholdEngine
