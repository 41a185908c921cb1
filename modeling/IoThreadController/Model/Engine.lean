/-
The scaling-engine interface (`engines/mod.rs`): actions, outcomes, and the engine as the controller sees it.

An engine is a state with four operations. The controller model is generic in it, so a result about every engine
quantifies over `ScalingEngine`.
-/
import IoThreadController.Model.Instance

namespace IoThreadController

inductive ScaleAction where
  | none
  | up (target : ℕ)
  | down (target : ℕ)
  | revert (target : ℕ)
deriving DecidableEq, Repr

/-- the requested worker count, or `none` for a hold -/
def ScaleAction.target : ScaleAction → Option ℕ
  | .none => Option.none
  | .up t | .down t | .revert t => some t

def ScaleAction.isUp : ScaleAction → Bool
  | .up _ => true
  | _ => false

/-- scale-up or scale-down: the actions that a cooldown holds back -/
def ScaleAction.isOrdinary : ScaleAction → Bool
  | .up _ | .down _ => true
  | _ => false

def ScaleAction.isRevert : ScaleAction → Bool
  | .revert _ => true
  | _ => false

theorem ScaleAction.isUp_iff {action : ScaleAction} : action.isUp = true ↔ ∃ t, action = .up t := by
  cases action <;> simp [ScaleAction.isUp]

theorem ScaleAction.isRevert_iff {action : ScaleAction} : action.isRevert = true ↔ ∃ t, action = .revert t := by
  cases action <;> simp [ScaleAction.isRevert]

theorem ScaleAction.isOrdinary_iff {action : ScaleAction} :
    action.isOrdinary = true ↔ (∃ t, action = .up t) ∨ ∃ t, action = .down t := by
  cases action <;> simp [ScaleAction.isOrdinary]

structure PsiSample where
  cpuSomeAvg10 : ℚ := 0
  ioSomeAvg10 : ℚ := 0
  memorySomeAvg10 : ℚ := 0
deriving DecidableEq, Repr

structure EngineTickContext where
  /-- when the tick started -/
  now : Instant
  minThreadCount : ℕ
  maxThreadCount : ℕ
  hostCpuUtil : ℚ := 0
  psi : PsiSample := {}
  tickIndex : ℕ := 0
deriving DecidableEq, Repr

structure InstanceDecision where
  instanceId : VmId
  decision : ScaleAction
deriving DecidableEq, Repr

/-- the guard that rejected an otherwise valid action -/
inductive BlockedReason where
  | manualOverride
  | unmanagedVm
  | targetBelowMinimum
  | targetExceedsMaximum
  | targetExceedsVcpuCount
  | hostCpuCeiling
  | cooldown
deriving DecidableEq, Repr

/-- result reported to an engine after actuation -/
inductive AppliedOutcome where
  | success (action : ScaleAction) (prevThreadCount prevIoCountTotal : ℕ) (appliedAt : Instant)
  | dryRun (action : ScaleAction) (prevThreadCount prevIoCountTotal : ℕ) (appliedAt : Instant)
  | blocked (action : ScaleAction) (reason : BlockedReason)
  | failed (action : ScaleAction) (error : BackendClientError)
deriving DecidableEq, Repr

def AppliedOutcome.action : AppliedOutcome → ScaleAction
  | .success a _ _ _ | .dryRun a _ _ _ | .blocked a _ | .failed a _ => a

/-- the outcomes that count as applied: success, and its dry-run counterpart -/
def AppliedOutcome.isApplied : AppliedOutcome → Bool
  | .success .. | .dryRun .. => true
  | .blocked .. | .failed .. => false

structure ScalingEngine where
  State : Type
  evaluateFleet : State → List Instance → EngineTickContext → State × List InstanceDecision
  onApplied : State → VmId → AppliedOutcome → State
  onInstanceAdded : State → Instance → State
  onInstanceRemoved : State → VmId → State

/-- the default `evaluate_fleet`: evaluate every VM that is neither sticky nor disabled, in fleet order -/
def evaluateFleetDefault {σ : Type} (evaluate : σ → Instance → EngineTickContext → σ × ScaleAction) (st : σ)
    (context : EngineTickContext) : List Instance → σ × List InstanceDecision
  | [] => (st, [])
  | i :: fleet =>
    if i.status.manualScalingSticky ∨ ¬ i.status.scalingAllowed then evaluateFleetDefault evaluate st context fleet
    else
      let (st', action) := evaluate st i context
      let (st'', decisions) := evaluateFleetDefault evaluate st' context fleet
      (st'', ⟨i.id, action⟩ :: decisions)

end IoThreadController
