/-
One VM's engine state, driven poll by poll.

A `Poll` is what the engine sees of one tick: the refreshed status, the context, and when the action that it proposed
was applied, if it was. `drive` is the resulting machine; `forget` is the removal of the VM. The controller refines it.

- `applyOutcome_success`: what an applied action leaves, validated or not.
- `driveStep_cases`: everything that one poll can do to the state.
- `Trace`: the history of a driven state, for results about when its rate windows started.
-/
import IoThreadController.Core.Run
import IoThreadController.Threshold.Spec

namespace IoThreadController

/-- one tick as the engine state of one VM sees it -/
structure Poll where
  status : InstanceStatus
  context : EngineTickContext
  /-- when the action proposed in this poll was applied, `none` when it was not -/
  appliedAt : Option Instant := none
deriving DecidableEq

inductive DriveEvent where
  | poll (p : Poll)
  /-- the VM left the inventory -/
  | forget

def Poll.sample (p : Poll) : IoSample := ThresholdEngine.sampleOf p.status p.context

/-- the sample that an applied action carries -/
def Poll.appliedSample (p : Poll) (appliedAt : Instant) : IoSample := ⟨ioTotal p.status.perf, appliedAt⟩

namespace ThresholdEngine

variable (T : ThresholdEngine)

/-- the proposal of a poll -/
def decision (s : InstanceState) (p : Poll) : ScaleAction := (T.evaluateInstance s p.status p.context).2

/-- evaluate, and take the outcome of the proposed action over -/
def driveStep (s : InstanceState) (p : Poll) : InstanceState :=
  let r := T.evaluateInstance s p.status p.context
  match p.appliedAt with
  | none => r.1
  | some appliedAt => T.applyOutcome r.1 (.success r.2 p.status.threadCount (ioTotal p.status.perf) appliedAt)

def drive (s : InstanceState) : DriveEvent → InstanceState
  | .poll p => T.driveStep s p
  | .forget => .new

/-! ## Outcomes -/

variable {T}

theorem applyOutcome_unapplied (s : InstanceState) {outcome : AppliedOutcome} (h : outcome.isApplied = false) :
    T.applyOutcome s outcome = s := by
  cases outcome with
  | success a n io u => cases h
  | dryRun a n io u => cases h
  | blocked a r => rfl
  | failed a e => rfl

theorem applyOutcome_other (s : InstanceState) {action : ScaleAction} (h : action.isOrdinary = false) (n io : ℕ)
    (at' : Instant) : T.applyOutcome s (.success action n io at') = s := by
  cases action with
  | none => rfl
  | up t => cases h
  | down t => cases h
  | revert t => rfl

/-- an applied scale-up or scale-down starts its validation, or a new baseline window when it is not validated -/
theorem applyOutcome_success (s : InstanceState) {action : ScaleAction} (h : action.isOrdinary = true) (n io : ℕ)
    (at' : Instant) :
    T.applyOutcome s (.success action n io at') =
      if T.validates action then
        (s.resetAfterApplied action).startValidation action n s.currentBaselineIops ⟨io, at'⟩
          (T.validationSamplePolls (action.target.getD n))
      else (s.resetAfterApplied action).resetBaselineWindow ⟨io, at'⟩ := by
  cases action with
  | none => cases h
  | up t => rfl
  | down t => rfl
  | revert t => cases h

/-! ## Steps -/

/-- an evaluation proposes an ordinary action only when no validation is pending -/
theorem pending_of_ordinary {s : InstanceState} {p : Poll} (h : (T.decision s p).isOrdinary = true) :
    s.pendingValidation = none := by
  cases ha : T.decision s p with
  | none => rw [ha] at h; cases h
  | revert t => rw [ha] at h; cases h
  | up t => exact (evaluate_up.1 ha).1.1
  | down t => exact (evaluate_down.1 ha).1.1

/-- everything that one poll can do: count down, settle, update the baseline, and start a validation or a baseline
window for an applied action -/
theorem driveStep_cases (T : ThresholdEngine) (s : InstanceState) (p : Poll) :
    (∃ pending, s.pendingValidation = some pending ∧ 0 < pending.pollsRemaining ∧ T.driveStep s p =
      { s with pendingValidation := some { pending with pollsRemaining := pending.pollsRemaining - 1 } }) ∨
    (∃ pending, Due s pending ∧
      T.driveStep s p = (T.settleValidation s pending p.status.perThreadUtil p.sample).1) ∨
    (s.pendingValidation = none ∧ T.driveStep s p = T.freeState s p.status p.context) ∨
    (∃ at', s.pendingValidation = none ∧ p.appliedAt = some at' ∧ (T.decision s p).isOrdinary = true ∧
      T.validates (T.decision s p) = true ∧ T.driveStep s p =
        ((T.freeState s p.status p.context).resetAfterApplied (T.decision s p)).startValidation (T.decision s p)
          p.status.threadCount (T.freeState s p.status p.context).currentBaselineIops (p.appliedSample at')
          (T.validationSamplePolls ((T.decision s p).target.getD p.status.threadCount))) ∨
    (∃ at', s.pendingValidation = none ∧ p.appliedAt = some at' ∧ (T.decision s p).isOrdinary = true ∧
      T.validates (T.decision s p) = false ∧ T.driveStep s p =
        ((T.freeState s p.status p.context).resetAfterApplied (T.decision s p)).resetBaselineWindow
          (p.appliedSample at')) := by
  cases hord : (T.decision s p).isOrdinary with
  | false =>
    -- nothing to apply: the step is the evaluation
    have hstep : T.driveStep s p = (T.evaluateInstance s p.status p.context).1 := by
      unfold driveStep
      cases p.appliedAt with
      | none => rfl
      | some at' => exact applyOutcome_other _ hord _ _ _
    cases hp : s.pendingValidation with
    | none =>
      rw [hstep, evaluate_free hp]
      exact Or.inr (Or.inr (Or.inl ⟨rfl, rfl⟩))
    | some pending =>
      by_cases hpos : 0 < pending.pollsRemaining
      · rw [hstep, evaluate_waiting hp hpos]
        exact Or.inl ⟨pending, rfl, hpos, rfl⟩
      · have hdue : pending.pollsRemaining = 0 := by omega
        rw [hstep, evaluate_due hp hdue]
        exact Or.inr (Or.inl ⟨pending, ⟨hp, hdue⟩, rfl⟩)
  | true =>
    have hp := pending_of_ordinary hord
    have hstate : (T.evaluateInstance s p.status p.context).1 = T.freeState s p.status p.context := by
      rw [evaluate_free hp]
    cases happ : p.appliedAt with
    | none =>
      refine Or.inr (Or.inr (Or.inl ⟨hp, ?_⟩))
      simp only [driveStep, happ, hstate]
    | some at' =>
      have hstep : T.driveStep s p = T.applyOutcome (T.freeState s p.status p.context)
          (.success (T.decision s p) p.status.threadCount (ioTotal p.status.perf) at') := by
        simp only [driveStep, happ, hstate, decision]
      rw [hstep, applyOutcome_success _ hord]
      cases hv : T.validates (T.decision s p) with
      | true => exact Or.inr (Or.inr (Or.inr (Or.inl ⟨at', hp, rfl, rfl, rfl, rfl⟩)))
      | false => exact Or.inr (Or.inr (Or.inr (Or.inr ⟨at', hp, rfl, rfl, rfl, rfl⟩)))

/-- a poll whose verdict is a revert leaves no validation behind -/
theorem driveStep_revert {s : InstanceState} {p : Poll} {t : ℕ} (h : T.decision s p = .revert t) :
    (T.driveStep s p).pendingValidation = none := by
  obtain ⟨pending, hdue, -⟩ := evaluate_revert.1 h
  have hstep : T.driveStep s p = (T.evaluateInstance s p.status p.context).1 := by
    have h' : (T.evaluateInstance s p.status p.context).2 = .revert t := h
    unfold driveStep
    rcases p.appliedAt with _ | at'
    · rfl
    · simp only [h']
      exact applyOutcome_other _ rfl _ _ _
  rw [hstep, evaluate_due hdue.1 hdue.2]
  exact settle_pending _ _ _ _

theorem resetAfterApplied_frame (s : InstanceState) (action : ScaleAction) :
    (s.resetAfterApplied action).pendingValidation = s.pendingValidation ∧
    (s.resetAfterApplied action).baselineWindowStart = s.baselineWindowStart ∧
    (s.resetAfterApplied action).currentBaselineIops = s.currentBaselineIops ∧
    ((s.resetAfterApplied action).postRevertUpHold = s.postRevertUpHold ∨
      (s.resetAfterApplied action).postRevertUpHold = none) := by
  cases action with
  | none => exact ⟨rfl, rfl, rfl, Or.inl rfl⟩
  | revert t => exact ⟨rfl, rfl, rfl, Or.inl rfl⟩
  | up t => exact ⟨rfl, rfl, rfl, Or.inl rfl⟩
  | down t => exact ⟨rfl, rfl, rfl, Or.inr rfl⟩

/-- the poll starts a validation: its applied action is one that the engine validates -/
def StartsValidation (T : ThresholdEngine) (s : InstanceState) (p : Poll) : Prop :=
  p.appliedAt.isSome = true ∧ ((T.UpReached s p.status p.context ∧ 0 < T.cfg.scaleUpMinGain) ∨
    (T.DownReached s p.status p.context ∧ 0 < T.cfg.scaleDownRevertDrop))

instance (s : InstanceState) (p : Poll) : Decidable (T.StartsValidation s p) := by
  unfold StartsValidation; infer_instance

/-- the poll opens a baseline window for an applied action that the engine does not validate -/
def AppliesUnvalidated (T : ThresholdEngine) (s : InstanceState) (p : Poll) : Prop :=
  p.appliedAt.isSome = true ∧ ((T.UpReached s p.status p.context ∧ ¬ 0 < T.cfg.scaleUpMinGain) ∨
    (T.DownReached s p.status p.context ∧ ¬ 0 < T.cfg.scaleDownRevertDrop))

instance (s : InstanceState) (p : Poll) : Decidable (T.AppliesUnvalidated s p) := by
  unfold AppliesUnvalidated; infer_instance

/-- an ordinary proposal reaches its branch, and its direction says whether it is validated -/
theorem ordinary_cases {s : InstanceState} {p : Poll} (hord : (T.decision s p).isOrdinary = true) :
    (T.UpReached s p.status p.context ∧ (T.validates (T.decision s p) = true ↔ 0 < T.cfg.scaleUpMinGain)) ∨
      (T.DownReached s p.status p.context ∧ (T.validates (T.decision s p) = true ↔ 0 < T.cfg.scaleDownRevertDrop)) := by
  rcases ha : T.decision s p with _ | t | t | t
  · rw [ha] at hord; cases hord
  · exact Or.inl ⟨(evaluate_up.1 ha).1, by simp [validates]⟩
  · exact Or.inr ⟨(evaluate_down.1 ha).1, by simp [validates]⟩
  · rw [ha] at hord; cases hord

theorem startsValidation_of {s : InstanceState} {p : Poll} {at' : Instant} (happ : p.appliedAt = some at')
    (hord : (T.decision s p).isOrdinary = true) (hv : T.validates (T.decision s p) = true) :
    T.StartsValidation s p := by
  refine ⟨by rw [happ]; rfl, ?_⟩
  rcases ordinary_cases hord with ⟨hu, hiff⟩ | ⟨hd, hiff⟩
  · exact Or.inl ⟨hu, hiff.1 hv⟩
  · exact Or.inr ⟨hd, hiff.1 hv⟩

theorem appliesUnvalidated_of {s : InstanceState} {p : Poll} {at' : Instant} (happ : p.appliedAt = some at')
    (hord : (T.decision s p).isOrdinary = true) (hv : T.validates (T.decision s p) = false) :
    T.AppliesUnvalidated s p := by
  have hnot : ¬ T.validates (T.decision s p) = true := by simp [hv]
  refine ⟨by rw [happ]; rfl, ?_⟩
  rcases ordinary_cases hord with ⟨hu, hiff⟩ | ⟨hd, hiff⟩
  · exact Or.inl ⟨hu, mt hiff.2 hnot⟩
  · exact Or.inr ⟨hd, mt hiff.2 hnot⟩

end ThresholdEngine

/-! ## Windows and history -/

namespace InstanceState

/-- start of the recovery window of a post-revert hold -/
def recoveryStart (s : InstanceState) : Option IoSample :=
  match s.postRevertUpHold with
  | some (.recovery _ windowStart) => some windowStart
  | _ => none

/-- the window that the next evaluation without a pending validation measures; there is none during grace -/
def openWindow (s : InstanceState) : Option IoSample :=
  match s.postRevertUpHold with
  | none => s.baselineWindowStart
  | some (.grace _) => none
  | some (.recovery _ windowStart) => some windowStart

end InstanceState

/-- the history of a driven state -/
structure Trace where
  /-- the latest clock reading -/
  clock : Instant := 0
  /-- end of the latest validation or grace period -/
  settled : Instant := 0
  /-- the samples taken from snapshots with counters -/
  counted : List IoSample := []
deriving DecidableEq

/-- the poll ends a validation or a grace period -/
def Settles (s : InstanceState) : Prop :=
  match s.pendingValidation with
  | some pending => pending.pollsRemaining = 0
  | none => s.postRevertUpHold = some (.grace 0)

instance (s : InstanceState) : Decidable (Settles s) := by
  unfold Settles
  exact match s.pendingValidation with
    | some _ => inferInstance
    | none => inferInstance

def noteTrace (s : InstanceState) (e : DriveEvent) (h : Trace) : Trace :=
  match e with
  | .forget => { h with settled := 0 }
  | .poll p =>
    { clock := p.appliedAt.getD p.context.now
      settled := if Settles s then p.context.now else h.settled
      counted :=
        if p.status.perf.isSome then p.sample :: (p.appliedAt.toList.map p.appliedSample ++ h.counted) else h.counted }

/-- the clock is monotonic: a poll starts after the last reading, and its action is applied after it started -/
def Clocked (x : InstanceState × Trace) : DriveEvent → Prop
  | .forget => True
  | .poll p => x.2.clock ≤ p.context.now ∧ (p.appliedAt.all fun at' => p.context.now ≤ at') = true

instance (x : InstanceState × Trace) : ∀ e : DriveEvent, Decidable (Clocked x e)
  | .forget => isTrue trivial
  | .poll _ => by unfold Clocked; infer_instance

/-- a driven state with its history -/
abbrev ThresholdEngine.traced (T : ThresholdEngine) : InstanceState × Trace → DriveEvent → InstanceState × Trace :=
  Core.withHistory T.drive noteTrace

end IoThreadController
