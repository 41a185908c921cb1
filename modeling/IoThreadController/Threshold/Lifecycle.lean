/-
The life of a validation: how long it runs, what its verdict is, and what the scale-up decision announced about both.

- `waiting_run`: a pending validation only counts down, whatever is observed.
- `validation_lifecycle`: after an applied and validated action the next `validationDelay` evaluations propose nothing,
  the one after them gives the verdict of `Regressed`, and the announcement of a scale-up agrees with it up to the
  saturation of its two numbers.
- `announcement_saturates`: where the saturation shows.
-/
import IoThreadController.Threshold.Baseline

namespace IoThreadController

theorem iopsRate_le (start stop : IoSample) : iopsRate start stop ≤ u64Max := by
  unfold iopsRate
  split
  · exact Nat.zero_le _
  · split_ifs
    · exact Nat.zero_le _
    · exact min_le_right _ _

/-- a count is below a rounded-up bound exactly when it is below the bound, as long as the cast does not saturate -/
theorem lt_asU64_ceil {n : ℕ} {x : ℚ} : n < asU64 ⌈x⌉ ↔ (n : ℚ) < x ∧ n < u64Max := by
  have hceil : n < ⌈x⌉.toNat ↔ (n : ℚ) < x := by
    rw [Int.lt_toNat, Int.lt_ceil]
    norm_cast
  unfold asU64
  rw [lt_min_iff, hceil]

namespace ThresholdEngine

variable {T : ThresholdEngine} {s : InstanceState} {p q : Poll}

/-! ## The verdict -/

/-- the observations that revert an action: a measured baseline that the new rate misses, and for a scale-down also
busy workers -/
def Regressed (T : ThresholdEngine) (action : ScaleAction) (baseline observed : ℕ) (util : ℚ) : Prop :=
  0 < baseline ∧
    match action with
    | .up _ => (observed : ℚ) < baseline * (1 + T.cfg.scaleUpMinGain)
    | .down _ => T.cfg.scaleUpThreshold < util ∧ (observed : ℚ) < baseline * (1 - T.cfg.scaleDownRevertDrop)
    | .none | .revert _ => False

instance (T : ThresholdEngine) (action : ScaleAction) (baseline observed : ℕ) (util : ℚ) :
    Decidable (T.Regressed action baseline observed util) := by
  unfold Regressed
  exact match action with
    | .up _ | .down _ | .none | .revert _ => inferInstance

theorem revertTarget_eq {pending : PendingValidation} (hv : T.validates pending.action = true) (observed : ℕ)
    (util : ℚ) :
    T.validationRevertTarget observed util pending =
      if T.Regressed pending.action pending.baselineIops observed util then some pending.baselineThreadCount
      else none := by
  unfold validationRevertTarget Regressed
  rcases ha : pending.action with _ | n | n | n
  · rw [ha] at hv; simp [validates] at hv
  · have hgain : 0 < T.cfg.scaleUpMinGain := by simpa [validates, ha] using hv
    simp [hgain]
  · have hdrop : 0 < T.cfg.scaleDownRevertDrop := by simpa [validates, ha] using hv
    by_cases hutil : util ≤ T.cfg.scaleUpThreshold
    · simp [hutil, not_lt.2 hutil]
    · simp [hutil, not_le.1 hutil, hdrop]
  · rw [ha] at hv; simp [validates] at hv

/-! ## The countdown -/

/-- polls until the verdict on an action that leads to `t` threads -/
def validationDelay (T : ThresholdEngine) (t : ℕ) : ℕ :=
  min (T.polls.scaleValidationDelay + T.polls.scaleValidationDelayPerThread * t) u32Max

theorem validationSamplePolls_eq (t : ℕ) : T.validationSamplePolls t = T.validationDelay t := by
  unfold validationSamplePolls validationDelay satAdd32 satMul32
  omega

/-- the validation `pending` with `k` polls to go -/
def Waiting (pending : PendingValidation) (k : ℕ) (s : InstanceState) : Prop :=
  s.pendingValidation = some { pending with pollsRemaining := k }

theorem waiting_step {pending : PendingValidation} {k : ℕ} (h : Waiting pending (k + 1) s) (p : Poll) :
    Waiting pending k (T.driveStep s p) := by
  have hsome : s.pendingValidation = some { pending with pollsRemaining := k + 1 } := h
  rcases driveStep_cases T s p with
    ⟨x, hx, -, he⟩ | ⟨x, hd, -⟩ | ⟨hn, -⟩ | ⟨at', hn, -, -, -, -⟩ | ⟨at', hn, -, -, -, -⟩
  · rw [hsome] at hx
    obtain rfl := Option.some.inj hx
    unfold Waiting
    rw [he]
    rfl
  · have hx := hd.1
    rw [hsome] at hx
    obtain rfl := Option.some.inj hx
    have hzero := hd.2
    simp at hzero
  · rw [hsome] at hn; simp at hn
  · rw [hsome] at hn; simp at hn
  · rw [hsome] at hn; simp at hn

theorem waiting_run {pending : PendingValidation} {k : ℕ} {qs : List Poll} (h : Waiting pending (k + qs.length) s) :
    Waiting pending k (Core.run T.driveStep s qs) :=
  Core.run_countdown (Waiting pending) (fun _ _ p hs _ => waiting_step hs p) h (Core.along_true _ _ _)

theorem waiting_decision {pending : PendingValidation} {k : ℕ} (h : Waiting pending (k + 1) s) (q : Poll) :
    T.decision s q = .none := by
  unfold decision
  rw [evaluate_waiting h (Nat.succ_pos k)]

/-- the verdict on a validated action -/
theorem due_decision {pending : PendingValidation} (h : Waiting pending 0 s) (hv : T.validates pending.action = true)
    (q : Poll) :
    T.decision s q =
      if T.Regressed pending.action pending.baselineIops (iopsRate pending.validationStart q.sample)
          q.status.perThreadUtil then
        .revert pending.baselineThreadCount
      else .none := by
  have hdue : T.validates ({ pending with pollsRemaining := 0 } : PendingValidation).action = true := hv
  unfold decision
  rw [evaluate_due h rfl, settle_snd, revertTarget_eq hdue]
  split_ifs with hcode hspec hspec
  · rfl
  · exact absurd hcode hspec
  · exact absurd hspec hcode
  · rfl

/-- what an applied and validated action stores -/
theorem pending_of_applied {at' : Instant} {t : ℕ} (happ : p.appliedAt = some at')
    (hact : T.decision s p = .up t ∨ T.decision s p = .down t) (hv : T.validates (T.decision s p) = true) :
    (T.driveStep s p).pendingValidation =
      some ⟨T.decision s p, p.status.threadCount, (T.evaluateInstance s p.status p.context).1.currentBaselineIops,
        p.appliedSample at', T.validationDelay t⟩ := by
  have hord : (T.decision s p).isOrdinary = true := by
    rcases hact with h | h <;> rw [h] <;> rfl
  have htarget : (T.decision s p).target.getD p.status.threadCount = t := by
    rcases hact with h | h <;> rw [h] <;> rfl
  have hstep : T.driveStep s p = T.applyOutcome (T.evaluateInstance s p.status p.context).1
      (.success (T.decision s p) p.status.threadCount (ioTotal p.status.perf) at') := by
    simp only [driveStep, happ, decision]
  rw [hstep, applyOutcome_success _ hord, if_pos hv, htarget, validationSamplePolls_eq]
  rfl

/-! ## The announcement -/

theorem announced_of_up {t pollPeriod : ℕ} (h : T.decision s p = .up t) :
    T.announced pollPeriod s p.status p.context =
      some (T.scaleUpDecision pollPeriod (T.evaluateInstance s p.status p.context).1 p.status t) := by
  have h' : (T.evaluateInstance s p.status p.context).2 = .up t := h
  unfold announced
  split
  · rename_i s' target heq
    rw [heq] at h'
    obtain rfl := ScaleAction.up.inj h'
    rw [heq]
  · rename_i hne
    exact (hne _ t (Prod.ext rfl h')).elim

/-- a scale-up regresses below the announced target, or where the target saturated -/
theorem regressed_up_iff {baseline observed : ℕ} (t : ℕ) (util : ℚ) (hobs : observed ≤ u64Max) :
    T.Regressed (.up t) baseline observed util ↔
      observed < asU64 ⌈(baseline : ℚ) * (1 + T.cfg.scaleUpMinGain)⌉ ∨
        observed = u64Max ∧ (u64Max : ℚ) < baseline * (1 + T.cfg.scaleUpMinGain) := by
  have hpos : (observed : ℚ) < baseline * (1 + T.cfg.scaleUpMinGain) → 0 < baseline := by
    intro h
    by_contra hzero
    obtain rfl : baseline = 0 := by omega
    have hnonneg : (0 : ℚ) ≤ observed := Nat.cast_nonneg _
    simp at h
    linarith
  rw [lt_asU64_ceil]
  constructor
  · intro h
    rcases hobs.lt_or_eq with hlt | rfl
    · exact Or.inl ⟨h.2, hlt⟩
    · exact Or.inr ⟨rfl, h.2⟩
  · rintro (⟨h, -⟩ | ⟨rfl, h⟩)
    · exact ⟨hpos h, h⟩
    · exact ⟨hpos h, h⟩

/-- after every applied and validated action: the stored baseline and delay, silence for the delay, the verdict at the
next evaluation, and for a scale-up the announcement of both -/
theorem validation_lifecycle (T : ThresholdEngine) (pollPeriod : ℕ) (s : InstanceState) (p : Poll) (at' : Instant)
    (t : ℕ) (happ : p.appliedAt = some at') (hact : T.decision s p = .up t ∨ T.decision s p = .down t)
    (hv : T.validates (T.decision s p) = true) :
    let n := p.status.threadCount
    let d := min (T.polls.scaleValidationDelay + T.polls.scaleValidationDelayPerThread * t) u32Max
    ∃ b, (T.driveStep s p).pendingValidation = some ⟨T.decision s p, n, b, p.appliedSample at', d⟩ ∧
      (∀ (qs : List Poll) (q : Poll),
        let x := Core.run T.driveStep (T.driveStep s p) qs
        let observed := iopsRate (p.appliedSample at') q.sample
        (qs.length < d → T.decision x q = .none) ∧
        (qs.length = d → T.decision x q =
          if T.Regressed (T.decision s p) b observed q.status.perThreadUtil then .revert n else .none)) ∧
      (T.decision s p = .up t → ∃ l, T.announced pollPeriod s p.status p.context = some l ∧ l.currentIops = b ∧
        l.validationAfter = min (pollPeriod * min (d + 1) u32Max) durationMax ∧
        ∀ (qs : List Poll) (q : Poll), qs.length = d →
          let observed := iopsRate (p.appliedSample at') q.sample
          T.decision (Core.run T.driveStep (T.driveStep s p) qs) q = .revert n ↔
            observed < l.minTargetIops ∨ observed = u64Max ∧ (u64Max : ℚ) < b * (1 + T.cfg.scaleUpMinGain)) := by
  intro n d
  have hpending := pending_of_applied happ hact hv
  let b := (T.evaluateInstance s p.status p.context).1.currentBaselineIops
  let pending : PendingValidation := ⟨T.decision s p, n, b, p.appliedSample at', d⟩
  have hstart : Waiting pending d (T.driveStep s p) := hpending
  have hverdict : ∀ (qs : List Poll) (q : Poll), qs.length = d →
      T.decision (Core.run T.driveStep (T.driveStep s p) qs) q =
        if T.Regressed (T.decision s p) b (iopsRate (p.appliedSample at') q.sample) q.status.perThreadUtil then
          .revert n
        else .none := by
    intro qs q hlen
    have hdue : Waiting pending 0 (Core.run T.driveStep (T.driveStep s p) qs) := by
      apply waiting_run
      rw [zero_add, hlen]
      exact hstart
    exact due_decision hdue hv q
  refine ⟨b, hpending, ?_, ?_⟩
  · intro qs q
    refine ⟨?_, hverdict qs q⟩
    intro hlen
    obtain ⟨k, hk⟩ := Nat.exists_eq_add_of_lt hlen
    apply waiting_decision (k := k)
    apply waiting_run
    have hsum : k + 1 + qs.length = d := by omega
    rw [hsum]
    exact hstart
  · intro hup
    refine ⟨_, announced_of_up hup, rfl, ?_, ?_⟩
    · have hgain : 0 < T.cfg.scaleUpMinGain := by simpa [validates, hup] using hv
      simp only [scaleUpDecision, if_pos hgain, validationAfter, satMulDuration, satAdd32, validationSamplePolls_eq]
      rfl
    · intro qs q hlen
      have hgain : 0 < T.cfg.scaleUpMinGain := by simpa [validates, hup] using hv
      rw [hverdict qs q hlen, hup]
      simp only [scaleUpDecision, if_pos hgain]
      rw [← regressed_up_iff t q.status.perThreadUtil (iopsRate_le _ _)]
      split_ifs with h
      · exact ⟨fun _ => h, fun _ => rfl⟩
      · exact ⟨fun hne => by simp at hne, fun hreg => (h hreg).elim⟩

/-- a baseline of 1000 IOPS, and a third worker that does not help -/
theorem validation_lifecycle_reverted :
    let poll (t io : ℕ) : Poll :=
      { status := { threadCount := 2, perThreadUtil := 1, perf := some { readIoCount := io } }
        context := ⟨fromSecs t, 2, 8, 0, {}, 0⟩
        appliedAt := some (fromSecs t) }
    let s : InstanceState := { baselineWindowStart := some ⟨0, 0⟩ }
    standard.decision
      (Core.run standard.driveStep (standard.driveStep s (poll 10 10000)) [poll 20 20000, poll 30 30000])
      (poll 40 40000) = .revert 2 := by
  intro poll s
  obtain ⟨b, hb, hrun, -⟩ := validation_lifecycle standard (fromSecs 10) s (poll 10 10000) (fromSecs 10) 3 rfl
    (Or.inl (by decide +kernel)) (by decide +kernel)
  have hstored : (standard.driveStep s (poll 10 10000)).pendingValidation =
      some ⟨.up 3, 2, 1000, ⟨10000, fromSecs 10⟩, 2⟩ := by decide +kernel
  rw [hstored] at hb
  obtain ⟨-, -, rfl, -⟩ := PendingValidation.mk.inj (Option.some.inj hb)
  rw [(hrun [poll 20 20000, poll 30 30000] (poll 40 40000)).2 (by decide +kernel)]
  exact if_pos (by decide +kernel)

/-- the longest delay is announced one poll short, and a target beyond `u64` is announced lower than it is -/
theorem announcement_saturates :
    let poll (t io : ℕ) : Poll :=
      { status := { threadCount := 2, perThreadUtil := 1, perf := some { readIoCount := io } }
        context := ⟨t, 2, 8, 0, {}, 0⟩
        appliedAt := some t }
    let patient : ThresholdEngine :=
      { polls := { scaleValidationDelay := u32Max }, valid := ThresholdConfig.validate_default }
    let eager : ThresholdEngine := { polls := { scaleValidationDelay := 0 }, valid := ThresholdConfig.validate_default }
    let s : InstanceState := { baselineWindowStart := some ⟨0, 0⟩ }
    let fast := poll 1 20000000000
    let next := poll 2 40000000000
    (patient.decision s fast = .up 3 ∧
      (patient.announced (fromSecs 10) s fast.status fast.context).map (·.validationAfter) ≠
        some (fromSecs 10 * (u32Max + 1))) ∧
    (eager.decision s fast = .up 3 ∧ eager.decision (eager.driveStep s fast) next = .revert 2 ∧
      (eager.announced (fromSecs 10) s fast.status fast.context).all
        (fun l => ¬ iopsRate (fast.appliedSample 1) next.sample < l.minTargetIops) = true) := by
  decide +kernel

end ThresholdEngine

end IoThreadController
