/-
What one evaluation of the threshold engine can do.

- `evaluate_up`, `evaluate_down`, `evaluate_revert`: when each action is proposed, in terms of the state before.
- `evaluate_waiting`, `evaluate_due`, `evaluate_free`: the three phases, by the pending validation.
- `evaluateWith_snd`, `evaluateWith_up`, `evaluateWith_down`: the decisions for any computed scale-down target.
- `baselinePhase_cases`: the seven ways in which an evaluation without a pending validation updates the baseline.
- `settle_kept`, `settle_failed_up`, `settle_failed_down`: the state that a verdict leaves.
-/
import IoThreadController.Model.Threshold

namespace IoThreadController

/-! ## Rates -/

theorem iopsRate_of_lt {start stop : IoSample} (h : start.at' < stop.at') :
    iopsRate start stop =
      asU64 (round (((stop.ioCount - start.ioCount : ℕ) : ℚ) / asSecs (stop.at' - start.at'))) := by
  unfold iopsRate
  rw [checkedDurationSince_of_le h.le]
  dsimp only
  rw [if_neg (not_le.2 (asSecs_pos (Nat.sub_pos_of_lt h)))]

theorem iopsRate_zero_window {start stop : IoSample} (h : stop.at' ≤ start.at') : iopsRate start stop = 0 := by
  unfold iopsRate checkedDurationSince
  rcases h.lt_or_eq with hlt | heq
  · rw [if_pos hlt]
  · rw [if_neg (not_lt.2 heq.ge)]
    simp [heq, asSecs]

/-- a counter that did not grow reads as no operations at all -/
theorem iopsRate_stalled {start stop : IoSample} (h : stop.ioCount ≤ start.ioCount) : iopsRate start stop = 0 := by
  rcases Nat.lt_or_ge start.at' stop.at' with hlt | hge
  · rw [iopsRate_of_lt hlt]
    have hzero : stop.ioCount - start.ioCount = 0 := by omega
    simp [hzero, asU64]
  · exact iopsRate_zero_window hge

namespace InstanceState

/-- whether the post-revert hold blocks scale-up at the next evaluation -/
def holdBlocks (s : InstanceState) (recoveryPolls : ℕ) : Bool :=
  match s.postRevertUpHold with
  | none => false
  | some (.grace pollsRemaining) => decide (0 < pollsRemaining ∨ recoveryPolls ≠ 0)
  | some (.recovery pollsRemaining _) => decide (1 < pollsRemaining)

theorem advance_blocks (s : InstanceState) (sample : IoSample) (recoveryPolls : ℕ) :
    (s.advancePostRevertUpHold sample recoveryPolls).2 = s.holdBlocks recoveryPolls := by
  unfold advancePostRevertUpHold holdBlocks
  rcases s.postRevertUpHold with _ | ⟨k⟩ | ⟨k, w⟩
  · rfl
  · dsimp only
    by_cases hk : 0 < k
    · rw [if_pos hk]; simp [hk]
    · rw [if_neg hk]
      by_cases hr : recoveryPolls = 0
      · rw [if_pos hr]; simp [hk, hr]
      · rw [if_neg hr]; simp [hr]
  · dsimp only
    by_cases hk : 1 < k
    · rw [if_pos hk]; simp [hk]
    · rw [if_neg hk]; simp [hk]

end InstanceState

namespace ThresholdEngine

variable (T : ThresholdEngine) (downTarget : ℕ) (s : InstanceState) (status : InstanceStatus)
  (context : EngineTickContext)

/-! ## Phases of an evaluation -/

/-- the baseline update of an evaluation without a pending validation -/
def baselinePhase (s : InstanceState) (sample : IoSample) : InstanceState :=
  let r := s.advancePostRevertUpHold sample T.polls.postRevertUpRecovery
  if r.2 then r.1 else r.1.refreshBaselineRate sample

/-- the state after an evaluation without a pending validation, for a computed scale-down target -/
def freeStateWith : InstanceState :=
  countLowUtil downTarget (T.baselinePhase s (sampleOf status context)) status

/-- the state after an evaluation without a pending validation -/
def freeState : InstanceState :=
  T.freeStateWith (T.scaleDownTarget status.perThreadUtil status.threadCount context.minThreadCount) s status context

variable {T downTarget s status context}

theorem evaluateWith_waiting {pending : PendingValidation} (h : s.pendingValidation = some pending)
    (hpos : 0 < pending.pollsRemaining) :
    T.evaluateWith downTarget s status context =
      ({ s with pendingValidation := some { pending with pollsRemaining := pending.pollsRemaining - 1 } }, .none) := by
  simp only [evaluateWith, h, if_pos hpos]

theorem evaluateWith_due {pending : PendingValidation} (h : s.pendingValidation = some pending)
    (hdue : pending.pollsRemaining = 0) :
    T.evaluateWith downTarget s status context =
      T.settleValidation s pending status.perThreadUtil (sampleOf status context) := by
  simp [evaluateWith, h, hdue]

theorem evaluateWith_free (h : s.pendingValidation = none) :
    T.evaluateWith downTarget s status context =
      (T.freeStateWith downTarget s status context,
        T.proposeWith downTarget (T.freeStateWith downTarget s status context) status context
          (s.holdBlocks T.polls.postRevertUpRecovery)) := by
  have hb := s.advance_blocks (sampleOf status context) T.polls.postRevertUpRecovery
  rw [← hb]
  simp only [evaluateWith, h, freeStateWith, baselinePhase]

theorem evaluate_waiting {pending : PendingValidation} (h : s.pendingValidation = some pending)
    (hpos : 0 < pending.pollsRemaining) :
    T.evaluateInstance s status context =
      ({ s with pendingValidation := some { pending with pollsRemaining := pending.pollsRemaining - 1 } }, .none) :=
  evaluateWith_waiting h hpos

theorem evaluate_due {pending : PendingValidation} (h : s.pendingValidation = some pending)
    (hdue : pending.pollsRemaining = 0) :
    T.evaluateInstance s status context =
      T.settleValidation s pending status.perThreadUtil (sampleOf status context) :=
  evaluateWith_due h hdue

theorem evaluate_free (h : s.pendingValidation = none) :
    T.evaluateInstance s status context =
      (T.freeState s status context,
        T.proposeWith (T.scaleDownTarget status.perThreadUtil status.threadCount context.minThreadCount)
          (T.freeState s status context) status context (s.holdBlocks T.polls.postRevertUpRecovery)) :=
  evaluateWith_free h

/-- what a verdict leaves when the action is kept -/
theorem settle_kept {pending : PendingValidation} {util : ℚ} {sample : IoSample}
    (h : T.validationRevertTarget (iopsRate pending.validationStart sample) util pending = none) :
    T.settleValidation s pending util sample =
      (match pending.action with
        | .up _ => { s with
            pendingValidation := none, baselineWindowStart := some sample, currentBaselineIops := 0
            consecutiveFailedUps := 0 }
        | _ => { s with
            pendingValidation := none, baselineWindowStart := some sample, currentBaselineIops := 0
            consecutiveFailedDowns := 0 }, .none) := by
  simp only [settleValidation, h, InstanceState.resetBaselineWindow]
  cases pending.action <;> rfl

/-- what a verdict leaves when a scale-up is reverted: the hold clears the baseline -/
theorem settle_failed_up {pending : PendingValidation} {util : ℚ} {sample : IoSample} {n t : ℕ}
    (ha : pending.action = .up n)
    (h : T.validationRevertTarget (iopsRate pending.validationStart sample) util pending = some t) :
    T.settleValidation s pending util sample =
      ({ s with
          pendingValidation := none, baselineWindowStart := none, currentBaselineIops := 0
          consecutiveFailedUps := satAdd32 s.consecutiveFailedUps 1
          postRevertUpHold :=
            some (.grace (T.postRevertUpGracePolls (satAdd32 s.consecutiveFailedUps 1))) }, .revert t) := by
  simp only [settleValidation, h, ha]
  rfl

theorem settle_failed_down {pending : PendingValidation} {util : ℚ} {sample : IoSample} {n t : ℕ}
    (ha : pending.action = .down n)
    (h : T.validationRevertTarget (iopsRate pending.validationStart sample) util pending = some t) :
    T.settleValidation s pending util sample =
      ({ s with
          pendingValidation := none, baselineWindowStart := some sample, currentBaselineIops := 0
          consecutiveFailedDowns := satAdd32 s.consecutiveFailedDowns 1 }, .revert t) := by
  simp only [settleValidation, h, ha]
  rfl

/-- only scale-ups and scale-downs are ever reverted, to the count before them -/
theorem revertTarget_some {pending : PendingValidation} {util : ℚ} {observed t : ℕ}
    (h : T.validationRevertTarget observed util pending = some t) :
    t = pending.baselineThreadCount ∧ ((∃ n, pending.action = .up n) ∨ ∃ n, pending.action = .down n) := by
  unfold validationRevertTarget at h
  cases ha : pending.action with
  | none => rw [ha] at h; simp at h
  | revert n => rw [ha] at h; simp at h
  | up n =>
    rw [ha] at h
    dsimp only at h
    split_ifs at h
    exact ⟨(Option.some.inj h).symm, Or.inl ⟨n, rfl⟩⟩
  | down n =>
    rw [ha] at h
    dsimp only at h
    split_ifs at h
    exact ⟨(Option.some.inj h).symm, Or.inr ⟨n, rfl⟩⟩

theorem settle_snd {pending : PendingValidation} {util : ℚ} {sample : IoSample} :
    (T.settleValidation s pending util sample).2 =
      match T.validationRevertTarget (iopsRate pending.validationStart sample) util pending with
      | none => .none
      | some t => .revert t := by
  cases h : T.validationRevertTarget (iopsRate pending.validationStart sample) util pending with
  | none => rw [settle_kept h]
  | some t =>
    rcases (revertTarget_some h).2 with ⟨n, ha⟩ | ⟨n, ha⟩
    · rw [settle_failed_up ha h]
    · rw [settle_failed_down ha h]

theorem settle_pending (s : InstanceState) (pending : PendingValidation) (util : ℚ) (sample : IoSample) :
    (T.settleValidation s pending util sample).1.pendingValidation = none := by
  rcases h : T.validationRevertTarget (iopsRate pending.validationStart sample) util pending with _ | t
  · rw [settle_kept h]
    split <;> rfl
  · rcases (revertTarget_some h).2 with ⟨n, ha⟩ | ⟨n, ha⟩
    · rw [settle_failed_up ha h]
    · rw [settle_failed_down ha h]

/-! ## The baseline -/

/-- the seven ways to update the baseline: no hold with and without a window, grace running, grace over without and with
a recovery, recovery running, recovery over -/
theorem baselinePhase_cases (T : ThresholdEngine) (s : InstanceState) (sample : IoSample) :
    (s.postRevertUpHold = none ∧ s.baselineWindowStart = none ∧ T.baselinePhase s sample =
        { s with baselineWindowStart := some sample, currentBaselineIops := 0 }) ∨
    (∃ w, s.postRevertUpHold = none ∧ s.baselineWindowStart = some w ∧ T.baselinePhase s sample =
        { s with currentBaselineIops := iopsRate w sample }) ∨
    (∃ k, s.postRevertUpHold = some (.grace (k + 1)) ∧ T.baselinePhase s sample =
        { s with postRevertUpHold := some (.grace k) }) ∨
    (s.postRevertUpHold = some (.grace 0) ∧ T.polls.postRevertUpRecovery = 0 ∧ T.baselinePhase s sample =
        { s with postRevertUpHold := none, baselineWindowStart := some sample, currentBaselineIops := 0 }) ∨
    (s.postRevertUpHold = some (.grace 0) ∧ T.polls.postRevertUpRecovery ≠ 0 ∧ T.baselinePhase s sample =
        { s with postRevertUpHold := some (.recovery T.polls.postRevertUpRecovery sample) }) ∨
    (∃ k w, s.postRevertUpHold = some (.recovery k w) ∧ 1 < k ∧ T.baselinePhase s sample =
        { s with currentBaselineIops := iopsRate w sample, postRevertUpHold := some (.recovery (k - 1) w) }) ∨
    (∃ k w, s.postRevertUpHold = some (.recovery k w) ∧ k ≤ 1 ∧ T.baselinePhase s sample =
        { s with
          currentBaselineIops := iopsRate w sample, postRevertUpHold := none, baselineWindowStart := some w }) := by
  unfold baselinePhase InstanceState.advancePostRevertUpHold
  rcases hh : s.postRevertUpHold with _ | ⟨k⟩ | ⟨k, w⟩
  · cases hw : s.baselineWindowStart with
    | none => exact Or.inl ⟨rfl, rfl, by simp [InstanceState.refreshBaselineRate, hw, hh]⟩
    | some w => exact Or.inr (Or.inl ⟨w, rfl, rfl, by simp [InstanceState.refreshBaselineRate, hw, hh]⟩)
  · cases k with
    | succ k => exact Or.inr (Or.inr (Or.inl ⟨k, rfl, by simp⟩))
    | zero =>
      by_cases hr : T.polls.postRevertUpRecovery = 0
      · refine Or.inr (Or.inr (Or.inr (Or.inl ⟨rfl, hr, ?_⟩)))
        simp [hr, InstanceState.resetBaselineWindow, InstanceState.refreshBaselineRate, iopsRate_zero_window]
      · exact Or.inr (Or.inr (Or.inr (Or.inr (Or.inl ⟨rfl, hr, by simp [hr]⟩))))
  · by_cases hk : 1 < k
    · exact Or.inr (Or.inr (Or.inr (Or.inr (Or.inr (Or.inl ⟨k, w, rfl, hk, by simp [hk]⟩)))))
    · refine Or.inr (Or.inr (Or.inr (Or.inr (Or.inr (Or.inr ⟨k, w, rfl, by omega, ?_⟩)))))
      simp [hk, InstanceState.refreshBaselineRate]

/-- the baseline update leaves the pending validation and the counters alone -/
theorem baselinePhase_frame (T : ThresholdEngine) (s : InstanceState) (sample : IoSample) :
    (T.baselinePhase s sample).pendingValidation = s.pendingValidation ∧
    (T.baselinePhase s sample).lowUtilPolls = s.lowUtilPolls ∧
    (T.baselinePhase s sample).consecutiveFailedUps = s.consecutiveFailedUps ∧
    (T.baselinePhase s sample).consecutiveFailedDowns = s.consecutiveFailedDowns := by
  rcases baselinePhase_cases T s sample with
    ⟨_, _, h⟩ | ⟨w, _, _, h⟩ | ⟨k, _, h⟩ | ⟨_, _, h⟩ | ⟨_, _, h⟩ | ⟨k, w, _, _, h⟩ | ⟨k, w, _, _, h⟩ <;>
  (rw [h]; exact ⟨rfl, rfl, rfl, rfl⟩)

theorem freeStateWith_frame (T : ThresholdEngine) (downTarget : ℕ) (s : InstanceState) (status : InstanceStatus)
    (context : EngineTickContext) :
    (T.freeStateWith downTarget s status context).pendingValidation = s.pendingValidation ∧
    (T.freeStateWith downTarget s status context).consecutiveFailedUps = s.consecutiveFailedUps ∧
    (T.freeStateWith downTarget s status context).consecutiveFailedDowns = s.consecutiveFailedDowns ∧
    (T.freeStateWith downTarget s status context).baselineWindowStart =
      (T.baselinePhase s (sampleOf status context)).baselineWindowStart ∧
    (T.freeStateWith downTarget s status context).currentBaselineIops =
      (T.baselinePhase s (sampleOf status context)).currentBaselineIops ∧
    (T.freeStateWith downTarget s status context).postRevertUpHold =
      (T.baselinePhase s (sampleOf status context)).postRevertUpHold := by
  obtain ⟨h1, -, h2, h3⟩ := baselinePhase_frame T s (sampleOf status context)
  unfold freeStateWith countLowUtil
  split_ifs <;> exact ⟨h1, h2, h3, rfl, rfl, rfl⟩

theorem freeState_frame (T : ThresholdEngine) (s : InstanceState) (status : InstanceStatus)
    (context : EngineTickContext) :
    (T.freeState s status context).pendingValidation = s.pendingValidation ∧
    (T.freeState s status context).consecutiveFailedUps = s.consecutiveFailedUps ∧
    (T.freeState s status context).consecutiveFailedDowns = s.consecutiveFailedDowns ∧
    (T.freeState s status context).baselineWindowStart =
      (T.baselinePhase s (sampleOf status context)).baselineWindowStart ∧
    (T.freeState s status context).currentBaselineIops =
      (T.baselinePhase s (sampleOf status context)).currentBaselineIops ∧
    (T.freeState s status context).postRevertUpHold =
      (T.baselinePhase s (sampleOf status context)).postRevertUpHold :=
  freeStateWith_frame T _ s status context

theorem freeStateWith_lowUtil (T : ThresholdEngine) (downTarget : ℕ) (s : InstanceState) (status : InstanceStatus)
    (context : EngineTickContext) :
    (T.freeStateWith downTarget s status context).lowUtilPolls =
      if downTarget < status.threadCount then (s.lowUtilPolls + 1) % 2 ^ 32 else 0 := by
  have h := (baselinePhase_frame T s (sampleOf status context)).2.1
  unfold freeStateWith countLowUtil
  split_ifs
  · rw [h]
  · rfl

theorem freeState_lowUtil (T : ThresholdEngine) (s : InstanceState) (status : InstanceStatus)
    (context : EngineTickContext) :
    (T.freeState s status context).lowUtilPolls =
      if T.scaleDownTarget status.perThreadUtil status.threadCount context.minThreadCount < status.threadCount then
        (s.lowUtilPolls + 1) % 2 ^ 32
      else 0 :=
  freeStateWith_lowUtil T _ s status context

/-! ## Decisions -/

/-- the saturation branch of an evaluation: no validation is pending, the hold does not block, the pool is below the
maximum and its workers are busy -/
def Saturated (T : ThresholdEngine) (s : InstanceState) (status : InstanceStatus) (context : EngineTickContext) :
    Prop :=
  s.holdBlocks T.polls.postRevertUpRecovery = false ∧ status.threadCount < context.maxThreadCount ∧
    T.cfg.scaleUpThreshold < status.perThreadUtil

instance : Decidable (T.Saturated s status context) := by unfold Saturated; infer_instance

/-- the evaluation reaches the scale-up proposal -/
def UpReached (T : ThresholdEngine) (s : InstanceState) (status : InstanceStatus) (context : EngineTickContext) :
    Prop :=
  s.pendingValidation = none ∧ T.Saturated s status context ∧
    ¬ (T.cfg.blockScaleUpWhenCgroupThrottled = true ∧ 0 < status.throttledUsecDelta)

instance : Decidable (T.UpReached s status context) := by unfold UpReached; infer_instance

/-- the evaluation reaches the scale-down proposal, for a computed target: the load fits a smaller pool and has done so for
long enough -/
def DownReachedWith (T : ThresholdEngine) (downTarget : ℕ) (s : InstanceState) (status : InstanceStatus)
    (context : EngineTickContext) : Prop :=
  s.pendingValidation = none ∧ ¬ T.Saturated s status context ∧ downTarget < status.threadCount ∧
    T.scaleDownSustainPolls s.consecutiveFailedDowns ≤ (s.lowUtilPolls + 1) % 2 ^ 32

instance : Decidable (T.DownReachedWith downTarget s status context) := by unfold DownReachedWith; infer_instance

/-- the evaluation reaches the scale-down proposal -/
def DownReached (T : ThresholdEngine) (s : InstanceState) (status : InstanceStatus) (context : EngineTickContext) :
    Prop :=
  T.DownReachedWith (T.scaleDownTarget status.perThreadUtil status.threadCount context.minThreadCount) s status context

instance : Decidable (T.DownReached s status context) := by unfold DownReached; infer_instance

theorem proposeWith_free (h : s.pendingValidation = none) :
    T.proposeWith downTarget (T.freeStateWith downTarget s status context) status context
        (s.holdBlocks T.polls.postRevertUpRecovery) =
      if T.UpReached s status context then .up (status.threadCount + 1)
      else if T.DownReachedWith downTarget s status context then .down downTarget
      else .none := by
  have hfail := (freeStateWith_frame T downTarget s status context).2.2.1
  have hlow := freeStateWith_lowUtil T downTarget s status context
  have hcond : (s.holdBlocks T.polls.postRevertUpRecovery = false ∧ status.threadCount < context.maxThreadCount ∧
      T.cfg.scaleUpThreshold < status.perThreadUtil) ↔ T.Saturated s status context := Iff.rfl
  unfold proposeWith
  by_cases hsat : T.Saturated s status context
  · rw [if_pos (hcond.2 hsat)]
    have hd : ¬ T.DownReachedWith downTarget s status context := fun hd => hd.2.1 hsat
    rw [if_neg hd]
    by_cases hc : T.cfg.blockScaleUpWhenCgroupThrottled = true ∧ 0 < status.throttledUsecDelta
    · rw [if_pos hc, if_neg fun hu => hu.2.2 hc]
    · rw [if_neg hc, if_pos ⟨h, hsat, hc⟩]
      have hmin : min (status.threadCount + 1) context.maxThreadCount = status.threadCount + 1 := by
        have := hsat.2.1; omega
      rw [hmin]
  · have hu : ¬ T.UpReached s status context := fun hu => hsat hu.2.1
    rw [if_neg (mt hcond.1 hsat), if_neg hu, hfail, hlow]
    by_cases hdt : downTarget < status.threadCount
    · rw [if_pos hdt]
      by_cases hsus : T.scaleDownSustainPolls s.consecutiveFailedDowns ≤ (s.lowUtilPolls + 1) % 2 ^ 32
      · rw [if_pos ⟨hdt, hsus⟩, if_pos ⟨h, hsat, hdt, hsus⟩]
      · rw [if_neg fun hx => hsus hx.2, if_neg fun hx => hsus hx.2.2.2]
    · rw [if_neg fun hx => hdt hx.1, if_neg fun hx => hdt hx.2.2.1]

theorem evaluateWith_snd :
    (T.evaluateWith downTarget s status context).2 =
      match s.pendingValidation with
      | some pending =>
        if 0 < pending.pollsRemaining then .none
        else
          match T.validationRevertTarget (iopsRate pending.validationStart (sampleOf status context))
              status.perThreadUtil pending with
          | none => .none
          | some t => .revert t
      | none =>
        if T.UpReached s status context then .up (status.threadCount + 1)
        else if T.DownReachedWith downTarget s status context then .down downTarget
        else .none := by
  cases h : s.pendingValidation with
  | none => rw [evaluateWith_free h]; exact proposeWith_free h
  | some pending =>
    dsimp only
    by_cases hpos : 0 < pending.pollsRemaining
    · rw [evaluateWith_waiting h hpos, if_pos hpos]
    · rw [evaluateWith_due h (by omega), if_neg hpos, settle_snd]

theorem evaluateWith_up {t : ℕ} :
    (T.evaluateWith downTarget s status context).2 = .up t ↔
      T.UpReached s status context ∧ t = status.threadCount + 1 := by
  rw [evaluateWith_snd]
  cases h : s.pendingValidation with
  | some pending =>
    have hu : ¬ T.UpReached s status context := fun hu => by rw [hu.1] at h; cases h
    dsimp only
    split
    · simp [hu]
    · split <;> simp [hu]
  | none =>
    dsimp only
    split_ifs with hu hd
    · simp [hu, eq_comm]
    · simp [hu]
    · simp [hu]

theorem evaluateWith_down {t : ℕ} :
    (T.evaluateWith downTarget s status context).2 = .down t ↔
      T.DownReachedWith downTarget s status context ∧ t = downTarget := by
  rw [evaluateWith_snd]
  cases h : s.pendingValidation with
  | some pending =>
    have hd : ¬ T.DownReachedWith downTarget s status context := fun hd => by rw [hd.1] at h; cases h
    dsimp only
    split
    · simp [hd]
    · split <;> simp [hd]
  | none =>
    dsimp only
    split_ifs with hu hd
    · have hd : ¬ T.DownReachedWith downTarget s status context := fun hd => hd.2.1 hu.2.1
      simp [hd]
    · simp [hd, eq_comm]
    · simp [hd]

theorem evaluate_snd :
    (T.evaluateInstance s status context).2 =
      match s.pendingValidation with
      | some pending =>
        if 0 < pending.pollsRemaining then .none
        else
          match T.validationRevertTarget (iopsRate pending.validationStart (sampleOf status context))
              status.perThreadUtil pending with
          | none => .none
          | some t => .revert t
      | none =>
        if T.UpReached s status context then .up (status.threadCount + 1)
        else if T.DownReached s status context then
          .down (T.scaleDownTarget status.perThreadUtil status.threadCount context.minThreadCount)
        else .none :=
  evaluateWith_snd

theorem evaluate_up {t : ℕ} :
    (T.evaluateInstance s status context).2 = .up t ↔ T.UpReached s status context ∧ t = status.threadCount + 1 :=
  evaluateWith_up

theorem evaluate_down {t : ℕ} :
    (T.evaluateInstance s status context).2 = .down t ↔ T.DownReached s status context ∧
      t = T.scaleDownTarget status.perThreadUtil status.threadCount context.minThreadCount :=
  evaluateWith_down

/-- a verdict is due: the countdown of the pending validation ran out -/
def Due (s : InstanceState) (pending : PendingValidation) : Prop :=
  s.pendingValidation = some pending ∧ pending.pollsRemaining = 0

theorem evaluate_revert {t : ℕ} :
    (T.evaluateInstance s status context).2 = .revert t ↔ ∃ pending, Due s pending ∧
      T.validationRevertTarget (iopsRate pending.validationStart (sampleOf status context)) status.perThreadUtil
        pending = some t := by
  rw [evaluate_snd]
  constructor
  · intro h
    cases hp : s.pendingValidation with
    | none => rw [hp] at h; dsimp only at h; split_ifs at h
    | some pending =>
      rw [hp] at h
      dsimp only at h
      split_ifs at h with hpos
      refine ⟨pending, ⟨hp, by omega⟩, ?_⟩
      cases hv : T.validationRevertTarget (iopsRate pending.validationStart (sampleOf status context))
          status.perThreadUtil pending with
      | none => rw [hv] at h; simp at h
      | some t' => rw [hv] at h; cases h; rfl
  · intro h
    obtain ⟨pending, ⟨hp, hdue⟩, hv⟩ := h
    simp [hp, hdue, hv]

end ThresholdEngine

end IoThreadController
