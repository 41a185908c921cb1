/-
What the counters of a driven state count.

`Evidence` is the history of one tracked VM in the operator's terms: reverted actions of each direction since the last
event that clears them, and consecutive evaluations of an oversized pool since the last applied action or verdict.

- `step_accurate`: every poll keeps the failure counts equal to the history, up to saturation, and the sustain counter
  equal to it while no validation is pending.
- `backoffPolls_eq`: the backoff of the source is the exact one, saturation included.
-/
import IoThreadController.Core.Backoff
import IoThreadController.Threshold.Windows

namespace IoThreadController

/-! ## Backoff -/

/-- the poll counts are `u32` values -/
structure ThresholdPolls.Fits (polls : ThresholdPolls) : Prop where
  sustain : polls.scaleDownSustain ≤ u32Max
  delay : polls.scaleValidationDelay ≤ u32Max
  delay_per_thread : polls.scaleValidationDelayPerThread ≤ u32Max
  grace : polls.postRevertUpGrace ≤ u32Max
  recovery : polls.postRevertUpRecovery ≤ u32Max
  up_cap : polls.postRevertUpBackoffMax ≤ u32Max
  down_cap : polls.scaleDownBackoffMax ≤ u32Max

theorem standard_fits : ThresholdEngine.standard.polls.Fits := by
  constructor <;> decide

theorem backoffPolls_eq {base cap : ℕ} (hbase : base ≤ u32Max) (hcap : cap ≤ u32Max) (doublings : ℕ) :
    backoffPolls base doublings cap = if cap = 0 then base else Core.backoff base doublings cap := by
  unfold backoffPolls satMul32
  split_ifs with hzero
  · rfl
  · have hswap : Nat.max cap base = max base cap := Nat.max_comm cap base
    rw [hswap]
    exact Core.backoff_saturating (max_le hbase hcap)

/-- a saturating failure count gives the same backoff as an unbounded one -/
theorem backoffPolls_failures {base cap : ℕ} (hbase : base ≤ u32Max) (hcap : cap ≤ u32Max) (failures skipped : ℕ)
    (hskip : skipped ≤ 1) :
    backoffPolls base (min failures u32Max - skipped) cap =
      if cap = 0 then base else min (base * 2 ^ (failures - skipped)) (max base cap) := by
  rw [backoffPolls_eq hbase hcap, Core.backoff_doublings (max_le hbase hcap) _ _ hskip]
  rfl

/-- the history of one tracked VM -/
structure Evidence where
  /-- evaluations since the discovery -/
  polls : ℕ := 0
  /-- scale-ups reverted since the last kept scale-up or applied scale-down -/
  failedUps : ℕ := 0
  /-- scale-downs reverted since the last kept scale-down or applied scale-up -/
  failedDowns : ℕ := 0
  /-- evaluations in a row, up to the latest one, in which the load fitted a smaller pool; none before the last applied
  action or verdict counts -/
  streak : ℕ := 0
deriving DecidableEq

namespace ThresholdEngine

variable {T : ThresholdEngine} {s : InstanceState} {p : Poll}

/-! ## Events of a poll -/

/-- the verdict that a poll gives: whether it judges a scale-up, and whether it reverts the action -/
def verdict (T : ThresholdEngine) (s : InstanceState) (p : Poll) : Option (Bool × Bool) :=
  match s.pendingValidation with
  | some pending =>
    if pending.pollsRemaining = 0 then some (pending.action.isUp, (T.decision s p).isRevert) else none
  | none => none

/-- the poll applies the scale-up or scale-down that it proposes -/
def Applies (T : ThresholdEngine) (s : InstanceState) (p : Poll) : Prop :=
  p.appliedAt.isSome = true ∧ (T.decision s p).isOrdinary = true

instance (s : InstanceState) (p : Poll) : Decidable (T.Applies s p) := by unfold Applies; infer_instance

/-- the load fits a smaller pool -/
def Oversized (T : ThresholdEngine) (p : Poll) : Prop :=
  T.scaleDownTarget p.status.perThreadUtil p.status.threadCount p.context.minThreadCount < p.status.threadCount

instance (p : Poll) : Decidable (T.Oversized p) := by unfold Oversized; infer_instance

def noteEvidence (T : ThresholdEngine) (s : InstanceState) (e : DriveEvent) (h : Evidence) : Evidence :=
  match e with
  | .forget => {}
  | .poll p =>
    let h := { h with polls := h.polls + 1 }
    match T.verdict s p with
    | some (true, reverted) => { h with failedUps := if reverted then h.failedUps + 1 else 0, streak := 0 }
    | some (false, reverted) => { h with failedDowns := if reverted then h.failedDowns + 1 else 0, streak := 0 }
    | none =>
      if T.Applies s p then
        if (T.decision s p).isUp then { h with failedDowns := 0, streak := 0 }
        else { h with failedUps := 0, streak := 0 }
      else { h with streak := if T.Oversized p then h.streak + 1 else 0 }

/-- a driven state with its evidence -/
abbrev witnessed (T : ThresholdEngine) : InstanceState × Evidence → DriveEvent → InstanceState × Evidence :=
  Core.withHistory T.drive T.noteEvidence

/-! ## Polls that apply nothing, and polls that do -/

theorem verdict_of_free (h : s.pendingValidation = none) : T.verdict s p = none := by simp [verdict, h]

theorem verdict_of_waiting {pending : PendingValidation} (h : s.pendingValidation = some pending)
    (hpos : 0 < pending.pollsRemaining) : T.verdict s p = none := by
  have hne : pending.pollsRemaining ≠ 0 := by omega
  simp [verdict, h, hne]

theorem verdict_some {up reverted : Bool} (h : T.verdict s p = some (up, reverted)) :
    ∃ pending, Due s pending ∧ pending.action.isUp = up ∧ (T.decision s p).isRevert = reverted := by
  unfold verdict at h
  split at h
  · rename_i pending hp
    split_ifs at h with hzero
    obtain ⟨hup, hrev⟩ := Prod.mk.inj (Option.some.inj h)
    exact ⟨pending, ⟨hp, hzero⟩, hup, hrev⟩
  · simp at h

theorem not_applies_of_pending {pending : PendingValidation} (h : s.pendingValidation = some pending) :
    ¬ T.Applies s p := by
  intro ha
  have hnone := pending_of_ordinary ha.2
  rw [h] at hnone
  simp at hnone

theorem driveStep_unapplied (h : ¬ T.Applies s p) :
    T.driveStep s p = (T.evaluateInstance s p.status p.context).1 := by
  unfold driveStep
  cases happ : p.appliedAt with
  | none => rfl
  | some at' =>
    have hother : (T.decision s p).isOrdinary = false := by
      by_contra hord
      exact h ⟨by rw [happ]; rfl, by simpa using hord⟩
    exact applyOutcome_other _ hother _ _ _

theorem driveStep_free (h : s.pendingValidation = none) (ha : ¬ T.Applies s p) :
    T.driveStep s p = T.freeState s p.status p.context := by
  rw [driveStep_unapplied ha, evaluate_free h]

/-- the counters and the hold after an applied action; only a validated one leaves a validation behind -/
theorem driveStep_applied (ha : T.Applies s p) :
    (T.driveStep s p).consecutiveFailedUps =
        ((T.freeState s p.status p.context).resetAfterApplied (T.decision s p)).consecutiveFailedUps ∧
      (T.driveStep s p).consecutiveFailedDowns =
        ((T.freeState s p.status p.context).resetAfterApplied (T.decision s p)).consecutiveFailedDowns ∧
      (T.driveStep s p).lowUtilPolls = 0 ∧ (T.driveStep s p).postRevertUpHold = none := by
  obtain ⟨at', happ⟩ := Option.isSome_iff_exists.1 ha.1
  have hp := pending_of_ordinary ha.2
  have hstep : T.driveStep s p = T.applyOutcome (T.freeState s p.status p.context)
      (.success (T.decision s p) p.status.threadCount (ioTotal p.status.perf) at') := by
    simp only [driveStep, happ, decision, evaluate_free hp]
  have hlow : ((T.freeState s p.status p.context).resetAfterApplied (T.decision s p)).lowUtilPolls = 0 := by
    rcases hd : T.decision s p with _ | t | t | t
    · have hord := ha.2; rw [hd] at hord; simp [ScaleAction.isOrdinary] at hord
    · rfl
    · rfl
    · have hord := ha.2; rw [hd] at hord; simp [ScaleAction.isOrdinary] at hord
  rw [hstep, applyOutcome_success _ ha.2]
  split_ifs
  · exact ⟨rfl, rfl, hlow, resetAfterApplied_hold ha.2⟩
  · exact ⟨rfl, rfl, hlow, resetAfterApplied_hold ha.2⟩

/-! ## The invariant -/

/-- the counters of a driven state agree with its history -/
structure Accurate (x : InstanceState × Evidence) : Prop where
  ups : x.1.consecutiveFailedUps = min x.2.failedUps u32Max
  downs : x.1.consecutiveFailedDowns = min x.2.failedDowns u32Max
  streak_free : x.1.pendingValidation = none → x.1.lowUtilPolls = x.2.streak % 2 ^ 32
  streak_pending : x.1.pendingValidation.isSome = true → x.1.lowUtilPolls = 0
  streak_le : x.2.streak ≤ x.2.polls

theorem new_accurate : Accurate (.new, {}) :=
  ⟨rfl, rfl, fun _ => rfl, fun h => by simp [InstanceState.new] at h, le_rfl⟩

theorem satAdd32_min (n : ℕ) : satAdd32 (min n u32Max) 1 = min (n + 1) u32Max := by
  unfold satAdd32
  omega

/-- counting down changes nothing but the literal streak -/
theorem waiting_accurate {x : InstanceState × Evidence} (h : Accurate x) {pending : PendingValidation}
    (hp : x.1.pendingValidation = some pending) (hpos : 0 < pending.pollsRemaining) (p : Poll) :
    Accurate (T.witnessed x (.poll p)) := by
  have hna : ¬ T.Applies x.1 p := not_applies_of_pending hp
  have hstate : T.driveStep x.1 p =
      { x.1 with pendingValidation := some { pending with pollsRemaining := pending.pollsRemaining - 1 } } := by
    rw [driveStep_unapplied hna, evaluate_waiting hp hpos]
  have hnote : T.noteEvidence x.1 (.poll p) x.2 =
      { x.2 with polls := x.2.polls + 1, streak := if T.Oversized p then x.2.streak + 1 else 0 } := by
    simp [noteEvidence, verdict_of_waiting hp hpos, hna]
  have hle := h.streak_le
  refine ⟨?_, ?_, ?_, ?_, ?_⟩ <;> simp only [Core.withHistory, drive, hstate, hnote]
  · exact h.ups
  · exact h.downs
  · intro hnone; simp at hnone
  · intro _
    exact h.streak_pending (by rw [hp]; rfl)
  · split_ifs <;> omega

/-- what a verdict does to the counters -/
theorem settle_counts (s : InstanceState) (pending : PendingValidation) (util : ℚ) (sample : IoSample) :
    let r := T.settleValidation s pending util sample
    r.1.lowUtilPolls = s.lowUtilPolls ∧
    r.1.consecutiveFailedUps =
      (if pending.action.isUp then if r.2.isRevert then satAdd32 s.consecutiveFailedUps 1 else 0
        else s.consecutiveFailedUps) ∧
    r.1.consecutiveFailedDowns =
      (if pending.action.isUp then s.consecutiveFailedDowns
        else if r.2.isRevert then satAdd32 s.consecutiveFailedDowns 1 else 0) := by
  intro r
  rcases hv : T.validationRevertTarget (iopsRate pending.validationStart sample) util pending with _ | t
  · have hr : r = _ := settle_kept hv
    rw [hr]
    rcases ha : pending.action with _ | n | n | n <;> exact ⟨rfl, rfl, rfl⟩
  · rcases (revertTarget_some hv).2 with ⟨n, ha⟩ | ⟨n, ha⟩
    · have hr : r = _ := settle_failed_up ha hv
      rw [hr, ha]
      exact ⟨rfl, rfl, rfl⟩
    · have hr : r = _ := settle_failed_down ha hv
      rw [hr, ha]
      exact ⟨rfl, rfl, rfl⟩

/-- a verdict moves the failure count of its direction and restarts the streak -/
theorem due_accurate {x : InstanceState × Evidence} (h : Accurate x) {pending : PendingValidation}
    (hd : Due x.1 pending) (p : Poll) : Accurate (T.witnessed x (.poll p)) := by
  have hzero : x.1.lowUtilPolls = 0 := h.streak_pending (by rw [hd.1]; rfl)
  have heval : T.evaluateInstance x.1 p.status p.context =
      T.settleValidation x.1 pending p.status.perThreadUtil p.sample := evaluate_due hd.1 hd.2
  have hstate : T.driveStep x.1 p = (T.settleValidation x.1 pending p.status.perThreadUtil p.sample).1 := by
    rw [driveStep_unapplied (not_applies_of_pending hd.1), heval]
  have hverdict : T.verdict x.1 p = some (pending.action.isUp,
      (T.settleValidation x.1 pending p.status.perThreadUtil p.sample).2.isRevert) := by
    simp [verdict, hd.1, hd.2, decision, heval]
  obtain ⟨hlow, hups, hdowns⟩ := settle_counts (T := T) x.1 pending p.status.perThreadUtil p.sample
  have hnone := settle_pending (T := T) x.1 pending p.status.perThreadUtil p.sample
  rw [← hstate] at hlow hups hdowns hnone
  rw [h.ups] at hups
  rw [h.downs] at hdowns
  have hstreak : (T.noteEvidence x.1 (.poll p) x.2).streak = 0 := by
    simp only [noteEvidence, hverdict]
    cases pending.action.isUp <;> rfl
  refine ⟨?_, ?_, fun _ => ?_, fun _ => hlow.trans hzero, ?_⟩
  · change (T.driveStep x.1 p).consecutiveFailedUps = min (T.noteEvidence x.1 (.poll p) x.2).failedUps u32Max
    rw [hups, satAdd32_min]
    simp only [noteEvidence, hverdict]
    cases pending.action.isUp <;>
      cases (T.settleValidation x.1 pending p.status.perThreadUtil p.sample).2.isRevert <;> simp
  · change (T.driveStep x.1 p).consecutiveFailedDowns = min (T.noteEvidence x.1 (.poll p) x.2).failedDowns u32Max
    rw [hdowns, satAdd32_min]
    simp only [noteEvidence, hverdict]
    cases pending.action.isUp <;>
      cases (T.settleValidation x.1 pending p.status.perThreadUtil p.sample).2.isRevert <;> simp
  · calc (T.driveStep x.1 p).lowUtilPolls = 0 := hlow.trans hzero
      _ = (T.noteEvidence x.1 (.poll p) x.2).streak % 2 ^ 32 := by rw [hstreak, Nat.zero_mod]
  · calc (T.noteEvidence x.1 (.poll p) x.2).streak = 0 := hstreak
      _ ≤ (T.noteEvidence x.1 (.poll p) x.2).polls := Nat.zero_le _

/-- an evaluation that applies nothing counts its poll -/
theorem free_accurate {x : InstanceState × Evidence} (h : Accurate x) (hp : x.1.pendingValidation = none) {p : Poll}
    (hna : ¬ T.Applies x.1 p) : Accurate (T.witnessed x (.poll p)) := by
  have hstate : T.driveStep x.1 p = T.freeState x.1 p.status p.context := driveStep_free hp hna
  have hnote : T.noteEvidence x.1 (.poll p) x.2 =
      { x.2 with polls := x.2.polls + 1, streak := if T.Oversized p then x.2.streak + 1 else 0 } := by
    simp [noteEvidence, verdict_of_free hp, hna]
  obtain ⟨hpend, hups, hdowns, -⟩ := freeState_frame T x.1 p.status p.context
  have hlow : (T.freeState x.1 p.status p.context).lowUtilPolls =
      if T.Oversized p then (x.1.lowUtilPolls + 1) % 2 ^ 32 else 0 := freeState_lowUtil T x.1 p.status p.context
  rw [h.streak_free hp] at hlow
  have hle := h.streak_le
  refine ⟨?_, ?_, ?_, ?_, ?_⟩ <;> simp only [Core.withHistory, drive, hstate, hnote]
  · exact hups.trans h.ups
  · exact hdowns.trans h.downs
  · intro _
    rw [hlow]
    by_cases ho : T.Oversized p
    · rw [if_pos ho, if_pos ho]
      exact Nat.mod_add_mod _ _ _
    · rw [if_neg ho, if_neg ho, Nat.zero_mod]
  · intro hsome
    rw [hpend, hp] at hsome
    simp at hsome
  · split_ifs <;> omega

/-- an applied action clears the streak and the failure count of the other direction -/
theorem applied_accurate {x : InstanceState × Evidence} (h : Accurate x) {p : Poll} (ha : T.Applies x.1 p) :
    Accurate (T.witnessed x (.poll p)) := by
  have hp := pending_of_ordinary ha.2
  obtain ⟨hups, hdowns, hlow, -⟩ := driveStep_applied ha
  obtain ⟨-, hu, hd, -⟩ := freeState_frame T x.1 p.status p.context
  rcases hdec : T.decision x.1 p with _ | t | t | t
  · have hord := ha.2; rw [hdec] at hord; simp [ScaleAction.isOrdinary] at hord
  · have hnote : T.noteEvidence x.1 (.poll p) x.2 =
        { x.2 with polls := x.2.polls + 1, failedDowns := 0, streak := 0 } := by
      simp [noteEvidence, verdict_of_free hp, ha, hdec, ScaleAction.isUp]
    rw [hdec] at hups hdowns
    refine ⟨?_, ?_, ?_, fun _ => hlow, ?_⟩ <;> simp only [Core.withHistory, drive, hnote]
    · exact hups.trans (hu.trans h.ups)
    · exact hdowns
    · intro _; exact hlow
    · exact Nat.zero_le _
  · have hnote : T.noteEvidence x.1 (.poll p) x.2 =
        { x.2 with polls := x.2.polls + 1, failedUps := 0, streak := 0 } := by
      simp [noteEvidence, verdict_of_free hp, ha, hdec, ScaleAction.isUp]
    rw [hdec] at hups hdowns
    refine ⟨?_, ?_, ?_, fun _ => hlow, ?_⟩ <;> simp only [Core.withHistory, drive, hnote]
    · exact hups
    · exact hdowns.trans (hd.trans h.downs)
    · intro _; exact hlow
    · exact Nat.zero_le _
  · have hord := ha.2; rw [hdec] at hord; simp [ScaleAction.isOrdinary] at hord

theorem step_accurate {x : InstanceState × Evidence} (h : Accurate x) (e : DriveEvent) :
    Accurate (T.witnessed x e) := by
  cases e with
  | forget => exact new_accurate
  | poll p =>
    cases hp : x.1.pendingValidation with
    | some pending =>
      rcases Nat.eq_zero_or_pos pending.pollsRemaining with hzero | hpos
      · exact due_accurate h ⟨hp, hzero⟩ p
      · exact waiting_accurate h hp hpos p
    | none =>
      by_cases ha : T.Applies x.1 p
      · exact applied_accurate h ha
      · exact free_accurate h hp ha

theorem run_accurate (T : ThresholdEngine) (es : List DriveEvent) :
    Accurate (Core.run T.witnessed (.new, {}) es) :=
  Core.run_inv Accurate (fun _ e hx _ => step_accurate hx e) new_accurate (Core.along_true _ _ _)

end ThresholdEngine

end IoThreadController
