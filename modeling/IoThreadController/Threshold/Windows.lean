/-
Where the rate windows of a driven state come from.

- `Tidy`: no hold during a validation, and no baseline window during grace. `driveStep_tidy`: every poll keeps it.
- `HasWindow`: the baseline window and the recovery window of a state.
- `driveStep_windows`: after a poll a window is an old one of a poll that settled nothing, or starts at this poll's sample
  (`Anchors`), or starts at the sample of an applied action without validation.
-/
import IoThreadController.Threshold.Drive

namespace IoThreadController

/-- a pending validation excludes a post-revert hold, and grace excludes a baseline window -/
structure InstanceState.Tidy (s : InstanceState) : Prop where
  pending_hold : ∀ pending, s.pendingValidation = some pending → s.postRevertUpHold = none
  grace_window : ∀ k, s.postRevertUpHold = some (.grace k) → s.baselineWindowStart = none

/-- `w` is the start of the baseline window or of the recovery window -/
def InstanceState.HasWindow (s : InstanceState) (w : IoSample) : Prop :=
  s.baselineWindowStart = some w ∨ s.recoveryStart = some w

theorem InstanceState.tidy_of_no_hold {s : InstanceState} (h : s.postRevertUpHold = none) : s.Tidy := by
  refine ⟨fun _ _ => h, ?_⟩
  intro k hk
  rw [h] at hk
  simp at hk

theorem InstanceState.new_tidy : InstanceState.new.Tidy := InstanceState.tidy_of_no_hold rfl

theorem InstanceState.hasWindow_congr {s t : InstanceState} (h1 : s.baselineWindowStart = t.baselineWindowStart)
    (h2 : s.postRevertUpHold = t.postRevertUpHold) {w : IoSample} : s.HasWindow w ↔ t.HasWindow w := by
  simp only [HasWindow, recoveryStart, h1, h2]

/-- the window that an evaluation measures is one of the two -/
theorem InstanceState.openWindow_hasWindow {s : InstanceState} {w : IoSample} (h : s.openWindow = some w) :
    s.HasWindow w := by
  unfold openWindow at h
  rcases hh : s.postRevertUpHold with _ | ⟨k⟩ | ⟨k, v⟩
  · rw [hh] at h; exact Or.inl h
  · rw [hh] at h; simp at h
  · rw [hh] at h
    refine Or.inr ?_
    simp only [recoveryStart, hh]
    exact h

/-- the poll starts a window at its own sample: it settles a validation or a grace period, or there is no window yet -/
def Anchors (s : InstanceState) : Prop :=
  Settles s ∨ s.pendingValidation = none ∧ s.postRevertUpHold = none ∧ s.baselineWindowStart = none

instance (s : InstanceState) : Decidable (Anchors s) := by unfold Anchors; infer_instance

namespace ThresholdEngine

variable {T : ThresholdEngine} {s : InstanceState}

theorem settles_of_due {pending : PendingValidation} (h : Due s pending) : Settles s := by
  simp [Settles, h.1, h.2]

/-! ## One poll, phase by phase -/

theorem baselinePhase_tidy (h : s.Tidy) (hp : s.pendingValidation = none) (sample : IoSample) :
    (T.baselinePhase s sample).Tidy := by
  have hpend : ∀ t : InstanceState, t.pendingValidation = none → ∀ pending,
      t.pendingValidation = some pending → t.postRevertUpHold = none := by
    intro t ht pending hsome
    rw [ht] at hsome
    simp at hsome
  have hp' : (T.baselinePhase s sample).pendingValidation = none := (baselinePhase_frame T s sample).1.trans hp
  refine ⟨hpend _ hp', ?_⟩
  intro k hk
  rcases baselinePhase_cases T s sample with
    ⟨hh, _, he⟩ | ⟨w, hh, _, he⟩ | ⟨j, hh, he⟩ | ⟨hh, _, he⟩ | ⟨hh, _, he⟩ | ⟨j, w, hh, _, he⟩ | ⟨j, w, hh, _, he⟩ <;>
  rw [he] at hk ⊢
  · rw [hh] at hk; simp at hk
  · rw [hh] at hk; simp at hk
  · exact h.grace_window _ hh
  · simp at hk
  · simp at hk
  · simp at hk
  · simp at hk

/-- a window after the baseline update is an old one, or starts at the sample because grace ended or none was open -/
theorem baselinePhase_windows (h : s.Tidy) {sample w : IoSample} (hw : (T.baselinePhase s sample).HasWindow w) :
    (s.HasWindow w ∧ s.postRevertUpHold ≠ some (.grace 0)) ∨
      (w = sample ∧ (s.postRevertUpHold = some (.grace 0) ∨
        s.postRevertUpHold = none ∧ s.baselineWindowStart = none)) := by
  rcases baselinePhase_cases T s sample with
    ⟨hh, hb, he⟩ | ⟨v, hh, hb, he⟩ | ⟨j, hh, he⟩ | ⟨hh, _, he⟩ | ⟨hh, _, he⟩ | ⟨j, v, hh, _, he⟩ | ⟨j, v, hh, _, he⟩ <;>
  rw [he] at hw
  · rcases hw with hw | hw
    · exact Or.inr ⟨(Option.some.inj hw).symm, Or.inr ⟨hh, hb⟩⟩
    · simp [InstanceState.recoveryStart, hh] at hw
  · exact Or.inl ⟨(InstanceState.hasWindow_congr rfl rfl).1 hw, by rw [hh]; exact nofun⟩
  · rcases hw with hw | hw
    · exact Or.inl ⟨Or.inl hw, by rw [hh]; exact nofun⟩
    · cases hw
  · rcases hw with hw | hw
    · exact Or.inr ⟨(Option.some.inj hw).symm, Or.inl hh⟩
    · cases hw
  · rcases hw with hw | hw
    · have hnone : s.baselineWindowStart = none := h.grace_window 0 hh
      have hold : s.baselineWindowStart = some w := hw
      rw [hnone] at hold
      simp at hold
    · exact Or.inr ⟨(Option.some.inj hw).symm, Or.inl hh⟩
  · refine Or.inl ⟨?_, by rw [hh]; exact nofun⟩
    rcases hw with hw | hw
    · exact Or.inl hw
    · right
      rw [← hw]
      simp [InstanceState.recoveryStart, hh]
  · refine Or.inl ⟨?_, by rw [hh]; exact nofun⟩
    rcases hw with hw | hw
    · right
      rw [← hw]
      simp [InstanceState.recoveryStart, hh]
    · cases hw

theorem freeState_tidy (h : s.Tidy) (hp : s.pendingValidation = none) (status : InstanceStatus)
    (context : EngineTickContext) : (T.freeState s status context).Tidy := by
  obtain ⟨h1, -, -, h4, -, h6⟩ := freeState_frame T s status context
  have hb : (T.baselinePhase s (sampleOf status context)).Tidy := baselinePhase_tidy h hp _
  refine ⟨?_, ?_⟩
  · intro pending hs
    rw [h1, hp] at hs; simp at hs
  · intro k hk
    rw [h4]; exact hb.grace_window k (h6 ▸ hk)

theorem freeState_windows {status : InstanceStatus} {context : EngineTickContext} {w : IoSample} :
    (T.freeState s status context).HasWindow w ↔ (T.baselinePhase s (sampleOf status context)).HasWindow w := by
  obtain ⟨-, -, -, h4, -, h6⟩ := freeState_frame T s status context
  exact InstanceState.hasWindow_congr h4 h6

/-- an ordinary proposal leaves no hold once it is applied -/
theorem resetAfterApplied_hold {p : Poll} (hord : (T.decision s p).isOrdinary = true) :
    ((T.freeState s p.status p.context).resetAfterApplied (T.decision s p)).postRevertUpHold = none := by
  cases ha : T.decision s p with
  | none => rw [ha] at hord; cases hord
  | revert t => rw [ha] at hord; cases hord
  | down t => rfl
  | up t =>
    have hblock : s.holdBlocks T.polls.postRevertUpRecovery = false := (evaluate_up.1 ha).1.2.1.1
    change (T.freeState s p.status p.context).postRevertUpHold = none
    rw [(freeState_frame T s p.status p.context).2.2.2.2.2]
    rcases baselinePhase_cases T s (sampleOf p.status p.context) with
      ⟨hh, _, he⟩ | ⟨v, hh, _, he⟩ | ⟨j, hh, he⟩ | ⟨hh, _, he⟩ | ⟨hh, hr, he⟩ | ⟨j, v, hh, hj, he⟩ | ⟨j, v, hh, _, he⟩ <;>
    rw [he]
    · exact hh
    · exact hh
    · simp [InstanceState.holdBlocks, hh] at hblock
    · simp [InstanceState.holdBlocks, hh, hr] at hblock
    · have hle : j ≤ 1 := by simpa [InstanceState.holdBlocks, hh] using hblock
      omega

theorem settle_tidy (h : s.Tidy) {pending : PendingValidation} (hd : Due s pending) (util : ℚ) (sample : IoSample) :
    (T.settleValidation s pending util sample).1.Tidy := by
  have hhold := h.pending_hold pending hd.1
  cases hv : T.validationRevertTarget (iopsRate pending.validationStart sample) util pending with
  | none =>
    rw [settle_kept hv]
    cases pending.action <;> exact InstanceState.tidy_of_no_hold hhold
  | some t =>
    rcases (revertTarget_some hv).2 with ⟨n, ha⟩ | ⟨n, ha⟩
    · rw [settle_failed_up ha hv]
      refine ⟨?_, fun k hk => rfl⟩
      intro q hq
      simp at hq
    · rw [settle_failed_down ha hv]
      exact InstanceState.tidy_of_no_hold hhold

/-- a verdict leaves no window but the one at its own sample -/
theorem settle_windows (h : s.Tidy) {pending : PendingValidation} (hd : Due s pending) {util : ℚ} {sample w : IoSample}
    (hw : (T.settleValidation s pending util sample).1.HasWindow w) : w = sample := by
  have hhold := h.pending_hold pending hd.1
  have hfinish : ∀ t : InstanceState, t.HasWindow w → t.baselineWindowStart = some sample →
      t.postRevertUpHold = none → w = sample := by
    intro t hw hb hh
    rcases hw with hw | hw
    · rw [hb] at hw; exact (Option.some.inj hw).symm
    · simp [InstanceState.recoveryStart, hh] at hw
  cases hv : T.validationRevertTarget (iopsRate pending.validationStart sample) util pending with
  | none =>
    rw [settle_kept hv] at hw
    cases ha : pending.action <;> rw [ha] at hw <;> exact hfinish _ hw rfl hhold
  | some t =>
    rcases (revertTarget_some hv).2 with ⟨n, ha⟩ | ⟨n, ha⟩
    · rw [settle_failed_up ha hv] at hw
      rcases hw with hw | hw
      · simp at hw
      · cases hw
    · rw [settle_failed_down ha hv] at hw
      exact hfinish _ hw rfl hhold

/-! ## One poll -/

theorem driveStep_tidy (h : s.Tidy) (p : Poll) : (T.driveStep s p).Tidy := by
  rcases driveStep_cases T s p with
    ⟨pending, hp, -, he⟩ | ⟨pending, hd, he⟩ | ⟨hp, he⟩ | ⟨at', hp, -, hord, -, he⟩ | ⟨at', hp, -, hord, -, he⟩ <;>
  rw [he]
  · refine ⟨fun q _ => h.pending_hold pending hp, h.grace_window⟩
  · exact settle_tidy h hd _ _
  · exact freeState_tidy h hp _ _
  · exact InstanceState.tidy_of_no_hold (resetAfterApplied_hold hord)
  · exact InstanceState.tidy_of_no_hold (resetAfterApplied_hold hord)

theorem drive_tidy (h : s.Tidy) (e : DriveEvent) : (T.drive s e).Tidy := by
  cases e with
  | poll p => exact driveStep_tidy h p
  | forget => exact InstanceState.new_tidy

/-- a window after a poll is old, starts at the poll's sample, or starts where an action without validation was applied -/
theorem driveStep_windows (h : s.Tidy) {p : Poll} {w : IoSample} (hw : (T.driveStep s p).HasWindow w) :
    (s.HasWindow w ∧ ¬ Settles s) ∨ (w = p.sample ∧ Anchors s) ∨
      ∃ at', p.appliedAt = some at' ∧ w = p.appliedSample at' ∧ T.AppliesUnvalidated s p := by
  -- the windows of an evaluation without a pending validation
  have hfree : s.pendingValidation = none → (T.freeState s p.status p.context).HasWindow w →
      (s.HasWindow w ∧ ¬ Settles s) ∨ (w = p.sample ∧ Anchors s) := by
    intro hp hw
    have hsettles : Settles s ↔ s.postRevertUpHold = some (.grace 0) := by simp [Settles, hp]
    rcases baselinePhase_windows h (freeState_windows.1 hw) with ⟨hold, hne⟩ | ⟨hw, hg | ⟨hh, hb⟩⟩
    · exact Or.inl ⟨hold, fun hs => hne (hsettles.1 hs)⟩
    · exact Or.inr ⟨hw, Or.inl (hsettles.2 hg)⟩
    · exact Or.inr ⟨hw, Or.inr ⟨hp, hh, hb⟩⟩
  rcases driveStep_cases T s p with
    ⟨pending, hp, hpos, he⟩ | ⟨pending, hd, he⟩ | ⟨hp, he⟩ | ⟨at', hp, happ, hord, -, he⟩ |
      ⟨at', hp, happ, hord, hv, he⟩ <;>
  rw [he] at hw
  · refine Or.inl ⟨(InstanceState.hasWindow_congr rfl rfl).1 hw, ?_⟩
    simp [Settles, hp]; omega
  · exact Or.inr (Or.inl ⟨settle_windows h hd hw, Or.inl (settles_of_due hd)⟩)
  · rcases hfree hp hw with hx | hx
    · exact Or.inl hx
    · exact Or.inr (Or.inl hx)
  · obtain ⟨-, hb, -, hh⟩ := resetAfterApplied_frame (T.freeState s p.status p.context) (T.decision s p)
    have hw' : (T.freeState s p.status p.context).HasWindow w := by
      rcases hw with hw | hw
      · exact Or.inl (hb ▸ hw)
      · have hhold := resetAfterApplied_hold hord
        simp only [InstanceState.recoveryStart, InstanceState.startValidation, hhold] at hw
        simp at hw
    rcases hfree hp hw' with hx | hx
    · exact Or.inl hx
    · exact Or.inr (Or.inl hx)
  · refine Or.inr (Or.inr ⟨at', happ, ?_, appliesUnvalidated_of happ hord hv⟩)
    rcases hw with hw | hw
    · exact (Option.some.inj hw).symm
    · have hhold := resetAfterApplied_hold hord
      simp only [InstanceState.recoveryStart, InstanceState.resetBaselineWindow, hhold] at hw
      simp at hw

end ThresholdEngine

end IoThreadController
