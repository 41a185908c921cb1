/-
The threshold engine (`engines/threshold.rs`): per-VM counters, `evaluate`, and `on_applied`.

`evaluate` is split where the source changes phase: `settleValidation` is the verdict on a pending action,
`InstanceState.advancePostRevertUpHold` and `refreshBaselineRate` update the baseline, and `proposeWith` is the decision;
`announced` is the expectation that a scale-up proposal logs.
The engine keeps one `InstanceState` for each VM; `evaluateInstance` and `applyOutcome` are the transitions of one such
state, and `thresholdEngine` runs them on the map.

Of the float arithmetic only the scale-down target decides between scale-up and scale-down: `scaleDownTarget` and
`evaluateInstance` are exact, `scaleDownTargetF64` and `evaluateF64` round as the source does.
-/
import IoThreadController.Model.Engine
import IoThreadController.Model.Config
import IoThreadController.Model.Text

namespace IoThreadController

/-! ## Configuration -/

structure ThresholdConfig where
  /-- average per-worker CPU fraction above which another worker is proposed -/
  scaleUpThreshold : ℚ := 95 / 100
  /-- most threads removed at once; zero means unlimited -/
  maxScaleDownStep : ℕ := 0
  /-- IOPS gain a scale-up must deliver; zero disables the check -/
  scaleUpMinGain : ℚ := 5 / 100
  /-- IOPS loss that reverts a scale-down; zero disables the check -/
  scaleDownRevertDrop : ℚ := 5 / 100
  blockScaleUpWhenCgroupThrottled : Bool := true
deriving DecidableEq, Repr

/-- the percentage checks of `ThresholdConfig::validate`, in source order -/
def ThresholdConfig.validate (cfg : ThresholdConfig) : Except ConfigError Unit :=
  if ¬ (0 < cfg.scaleUpThreshold ∧ cfg.scaleUpThreshold ≤ 1) then
    .error (.invalidValue "scale_up_threshold_percent must be in (0, 100]")
  else if ¬ (0 ≤ cfg.scaleUpMinGain ∧ cfg.scaleUpMinGain ≤ 1) then
    .error (.invalidValue "scale_up_min_gain_percent must be in [0, 100]")
  else if ¬ (0 ≤ cfg.scaleDownRevertDrop ∧ cfg.scaleDownRevertDrop ≤ 1) then
    .error (.invalidValue "scale_down_revert_drop_percent must be in [0, 100]")
  else .ok ()

theorem ThresholdConfig.validate_default : ({} : ThresholdConfig).validate = .ok () := by
  decide +kernel

/-- the durations in polls, as `resolve_polls` leaves them -/
structure ThresholdPolls where
  scaleDownSustain : ℕ := 3
  scaleValidationDelay : ℕ := 2
  scaleValidationDelayPerThread : ℕ := 0
  postRevertUpGrace : ℕ := 1
  postRevertUpRecovery : ℕ := 2
  postRevertUpBackoffMax : ℕ := 30
  scaleDownBackoffMax : ℕ := 120
deriving DecidableEq, Repr

/-- `base` doubled `doublings` times, capped at `max` (never below `base`); a zero `max` disables the backoff -/
def backoffPolls (base doublings max : ℕ) : ℕ :=
  if max = 0 then base else min (satMul32 base (min (2 ^ doublings) u32Max)) (Nat.max max base)

/-- an engine built by `ThresholdEngine::new`, so its percentages passed `validate` -/
structure ThresholdEngine where
  cfg : ThresholdConfig := {}
  polls : ThresholdPolls := {}
  valid : cfg.validate = .ok ()

/-- the engine with the default settings -/
def ThresholdEngine.standard : ThresholdEngine := { valid := ThresholdConfig.validate_default }

/-! ## Per-VM state -/

/-- one sample of the cumulative counter: start or end of a rate window -/
structure IoSample where
  ioCount : ℕ
  at' : Instant
deriving DecidableEq, Repr

/-- average operations per second between two samples -/
def iopsRate (start stop : IoSample) : ℕ :=
  match checkedDurationSince stop.at' start.at' with
  | none => 0
  | some elapsed =>
    if asSecs elapsed ≤ 0 then 0
    else asU64 (round (((stop.ioCount - start.ioCount : ℕ) : ℚ) / asSecs elapsed))

/-- one successful action waiting for post-action validation -/
structure PendingValidation where
  action : ScaleAction
  /-- worker count to restore after a regression -/
  baselineThreadCount : ℕ
  baselineIops : ℕ
  validationStart : IoSample
  /-- complete observations still required before the verdict -/
  pollsRemaining : ℕ
deriving DecidableEq, Repr

inductive PostRevertUpHold where
  | grace (pollsRemaining : ℕ)
  | recovery (pollsRemaining : ℕ) (windowStart : IoSample)
deriving DecidableEq, Repr

structure InstanceState where
  lowUtilPolls : ℕ := 0
  pendingValidation : Option PendingValidation := none
  baselineWindowStart : Option IoSample := none
  currentBaselineIops : ℕ := 0
  postRevertUpHold : Option PostRevertUpHold := none
  consecutiveFailedUps : ℕ := 0
  consecutiveFailedDowns : ℕ := 0
deriving DecidableEq, Repr

namespace InstanceState

/-- `InstanceState::new` -/
def new : InstanceState := {}

def startValidation (s : InstanceState) (action : ScaleAction) (previousThreadCount baselineIops : ℕ)
    (validationStart : IoSample) (pollsRemaining : ℕ) : InstanceState :=
  { s with
    pendingValidation := some ⟨action, previousThreadCount, baselineIops, validationStart, pollsRemaining⟩ }

def resetBaselineWindow (s : InstanceState) (start : IoSample) : InstanceState :=
  { s with baselineWindowStart := some start, currentBaselineIops := 0 }

/-- consume the evidence that led to an applied action -/
def resetAfterApplied (s : InstanceState) : ScaleAction → InstanceState
  | .up _ => { s with consecutiveFailedDowns := 0, lowUtilPolls := 0 }
  | .down _ => { s with postRevertUpHold := none, consecutiveFailedUps := 0, lowUtilPolls := 0 }
  | .none | .revert _ => s

/-- refresh the baseline rate of the window ending at `stop`, opening the window when there is none -/
def refreshBaselineRate (s : InstanceState) (stop : IoSample) : InstanceState :=
  match s.baselineWindowStart with
  | none => { s with baselineWindowStart := some stop, currentBaselineIops := 0 }
  | some start => { s with currentBaselineIops := iopsRate start stop }

def beginPostRevertUpHold (s : InstanceState) (gracePolls : ℕ) : InstanceState :=
  { s with baselineWindowStart := none, currentBaselineIops := 0, postRevertUpHold := some (.grace gracePolls) }

/-- advance grace or recovery; the flag says whether scale-up must stay blocked -/
def advancePostRevertUpHold (s : InstanceState) (sample : IoSample) (recoveryPolls : ℕ) : InstanceState × Bool :=
  match s.postRevertUpHold with
  | none => (s, false)
  | some (.grace pollsRemaining) =>
    if 0 < pollsRemaining then ({ s with postRevertUpHold := some (.grace (pollsRemaining - 1)) }, true)
    -- grace finished: anchor the recovery window, or the normal one when there is no recovery
    else if recoveryPolls = 0 then (({ s with postRevertUpHold := none }).resetBaselineWindow sample, false)
    else ({ s with postRevertUpHold := some (.recovery recoveryPolls sample) }, true)
  | some (.recovery pollsRemaining windowStart) =>
    let rate := iopsRate windowStart sample
    if 1 < pollsRemaining then
      ({ s with currentBaselineIops := rate
                postRevertUpHold := some (.recovery (pollsRemaining - 1) windowStart) }, true)
    else
      ({ s with currentBaselineIops := rate, postRevertUpHold := none, baselineWindowStart := some windowStart }, false)

end InstanceState

/-! ## The engine's pure functions -/

namespace ThresholdEngine

variable (T : ThresholdEngine)

/-- validation polls for an action's resulting thread count -/
def validationSamplePolls (targetThreadCount : ℕ) : ℕ :=
  satAdd32 T.polls.scaleValidationDelay (satMul32 T.polls.scaleValidationDelayPerThread targetThreadCount)

/-- smallest pool that keeps the average load at the up threshold, within the step limit and above the minimum; the result
of every float operation passes through `fl` -/
def scaleDownTargetBy (fl : ℚ → ℚ) (perThreadUtil : ℚ) (threadCount minThreadCount : ℕ) : ℕ :=
  let totalLoad := fl (perThreadUtil * threadCount)
  -- `ceil().clamp(1.0, u32::MAX)` before the cast
  let required := min (max ⌈fl (totalLoad / T.cfg.scaleUpThreshold)⌉ 1).toNat u32Max
  let target := max required minThreadCount
  if threadCount ≤ target then threadCount
  else if T.cfg.maxScaleDownStep = 0 then target
  else max target (max (threadCount - T.cfg.maxScaleDownStep) minThreadCount)

/-- `scale_down_target` in exact arithmetic -/
def scaleDownTarget : ℚ → ℕ → ℕ → ℕ := T.scaleDownTargetBy id

/-- `scale_down_target` as the source computes it, each result rounded to the nearest `f64` -/
def scaleDownTargetF64 : ℚ → ℕ → ℕ → ℕ := T.scaleDownTargetBy roundF64

/-- the count to restore when a settled action regressed, `none` when it is kept -/
def validationRevertTarget (observedIops : ℕ) (perThreadUtil : ℚ) (pending : PendingValidation) : Option ℕ :=
  match pending.action with
  | .up _ =>
    let required : ℚ := pending.baselineIops * (1 + T.cfg.scaleUpMinGain)
    if 0 < T.cfg.scaleUpMinGain ∧ 0 < pending.baselineIops ∧ (observedIops : ℚ) < required then
      some pending.baselineThreadCount
    else none
  | .down _ =>
    -- low utilisation after a scale-down means that demand left: the smaller pool is kept
    if perThreadUtil ≤ T.cfg.scaleUpThreshold then none
    else
      let required : ℚ := pending.baselineIops * (1 - T.cfg.scaleDownRevertDrop)
      if 0 < T.cfg.scaleDownRevertDrop ∧ 0 < pending.baselineIops ∧ (observedIops : ℚ) < required then
        some pending.baselineThreadCount
      else none
  | .none | .revert _ => none

/-- grace polls of the hold after `failures` consecutive failed scale-ups; the backoff extends grace only -/
def postRevertUpGracePolls (failures : ℕ) : ℕ :=
  let recovery := T.polls.postRevertUpRecovery
  backoffPolls (satAdd32 T.polls.postRevertUpGrace recovery) (failures - 1) T.polls.postRevertUpBackoffMax - recovery

/-- low-utilisation polls required before scale-down after `failures` consecutive failed scale-downs -/
def scaleDownSustainPolls (failures : ℕ) : ℕ :=
  backoffPolls T.polls.scaleDownSustain failures T.polls.scaleDownBackoffMax

/-- time until a post-scale sample is evaluated: the countdown consumes the polls, the next tick compares -/
def validationAfter (pollPeriod targetThreadCount : ℕ) : ℕ :=
  satMulDuration pollPeriod (satAdd32 (T.validationSamplePolls targetThreadCount) 1)

/-! ## Evaluate -/

/-- the sample that an evaluation at `now` takes from a status -/
def sampleOf (status : InstanceStatus) (context : EngineTickContext) : IoSample := ⟨ioTotal status.perf, context.now⟩

/-- verdict on a pending action whose countdown ran out -/
def settleValidation (s : InstanceState) (pending : PendingValidation) (perThreadUtil : ℚ) (sample : IoSample) :
    InstanceState × ScaleAction :=
  let observedIops := iopsRate pending.validationStart sample
  let failedUp := match pending.action with | .up _ => true | _ => false
  -- the next baseline excludes this validation window, whatever the verdict
  let s := ({ s with pendingValidation := none }).resetBaselineWindow sample
  match T.validationRevertTarget observedIops perThreadUtil pending with
  | none => (if failedUp then { s with consecutiveFailedUps := 0 } else { s with consecutiveFailedDowns := 0 }, .none)
  | some target =>
    if failedUp then
      let failures := satAdd32 s.consecutiveFailedUps 1
      (({ s with consecutiveFailedUps := failures }).beginPostRevertUpHold (T.postRevertUpGracePolls failures),
        .revert target)
    else ({ s with consecutiveFailedDowns := satAdd32 s.consecutiveFailedDowns 1 }, .revert target)

/-- the decision when no validation is pending, for a computed scale-down target; `blockScaleUp` is the answer of the
post-revert hold -/
def proposeWith (downTarget : ℕ) (s : InstanceState) (status : InstanceStatus) (context : EngineTickContext)
    (blockScaleUp : Bool) : ScaleAction :=
  if blockScaleUp = false ∧ status.threadCount < context.maxThreadCount ∧
      T.cfg.scaleUpThreshold < status.perThreadUtil then
    if T.cfg.blockScaleUpWhenCgroupThrottled ∧ 0 < status.throttledUsecDelta then .none
    else .up (min (status.threadCount + 1) context.maxThreadCount)
  else if downTarget < status.threadCount ∧
      T.scaleDownSustainPolls s.consecutiveFailedDowns ≤ s.lowUtilPolls then .down downTarget
  else .none

/-- count this poll towards the scale-down sustain, or restart the count; the `u32` counter wraps -/
def countLowUtil (downTarget : ℕ) (s : InstanceState) (status : InstanceStatus) : InstanceState :=
  if downTarget < status.threadCount then { s with lowUtilPolls := (s.lowUtilPolls + 1) % 2 ^ 32 }
  else { s with lowUtilPolls := 0 }

/-- `ThresholdEngine::evaluate` on one VM's state, which computes the scale-down target first -/
def evaluateWith (downTarget : ℕ) (s : InstanceState) (status : InstanceStatus) (context : EngineTickContext) :
    InstanceState × ScaleAction :=
  let sample := sampleOf status context
  match s.pendingValidation with
  | some pending =>
    if 0 < pending.pollsRemaining then
      ({ s with pendingValidation := some { pending with pollsRemaining := pending.pollsRemaining - 1 } }, .none)
    else T.settleValidation s pending status.perThreadUtil sample
  | none =>
    let (s, blockScaleUp) := s.advancePostRevertUpHold sample T.polls.postRevertUpRecovery
    let s := if blockScaleUp then s else s.refreshBaselineRate sample
    let s := countLowUtil downTarget s status
    (s, T.proposeWith downTarget s status context blockScaleUp)

/-- the evaluation in exact arithmetic -/
def evaluateInstance (s : InstanceState) (status : InstanceStatus) (context : EngineTickContext) :
    InstanceState × ScaleAction :=
  T.evaluateWith (T.scaleDownTarget status.perThreadUtil status.threadCount context.minThreadCount) s status context

/-- the evaluation with the scale-down target of the source's `f64` arithmetic -/
def evaluateF64 (s : InstanceState) (status : InstanceStatus) (context : EngineTickContext) :
    InstanceState × ScaleAction :=
  T.evaluateWith (T.scaleDownTargetF64 status.perThreadUtil status.threadCount context.minThreadCount) s status context

/-! ## The scale-up announcement -/

/-- the values of `log_scale_up_decision` -/
structure ScaleUpDecision where
  perThreadUtil : ℚ
  threadCount : ℕ
  target : ℕ
  currentIops : ℕ
  minTargetIops : ℕ
  validationAfter : ℕ
deriving DecidableEq, Repr

/-- what a scale-up proposal announces; without validation there is nothing to reach and nothing to wait for -/
def scaleUpDecision (pollPeriod : ℕ) (s : InstanceState) (status : InstanceStatus) (target : ℕ) : ScaleUpDecision :=
  let currentIops := s.currentBaselineIops
  let (minTargetIops, validationAfter) :=
    if 0 < T.cfg.scaleUpMinGain then
      (asU64 ⌈(currentIops : ℚ) * (1 + T.cfg.scaleUpMinGain)⌉, T.validationAfter pollPeriod target)
    else (currentIops, 0)
  ⟨status.perThreadUtil, status.threadCount, target, currentIops, minTargetIops, validationAfter⟩

/-- the scale-up decision that an evaluation logs, if it proposes one -/
def announced (pollPeriod : ℕ) (s : InstanceState) (status : InstanceStatus) (context : EngineTickContext) :
    Option ScaleUpDecision :=
  match T.evaluateInstance s status context with
  | (s', .up target) => some (T.scaleUpDecision pollPeriod s' status target)
  | _ => none

/-! ## Outcomes -/

/-- the sample and action that an applied outcome carries; blocked and failed outcomes carry none -/
def appliedParts : AppliedOutcome → Option (ScaleAction × ℕ × IoSample)
  | .success action prev ioCount at' | .dryRun action prev ioCount at' => some (action, prev, ⟨ioCount, at'⟩)
  | .blocked .. | .failed .. => none

/-- whether an action of this direction is validated afterwards -/
def validates : ScaleAction → Bool
  | .up _ => 0 < T.cfg.scaleUpMinGain
  | .down _ => 0 < T.cfg.scaleDownRevertDrop
  | .none | .revert _ => false

/-- `ThresholdEngine::on_applied` on one VM's state -/
def applyOutcome (s : InstanceState) (outcome : AppliedOutcome) : InstanceState :=
  match appliedParts outcome with
  | none => s
  | some (.none, _, _) | some (.revert _, _, _) => s
  | some (action, previousThreadCount, applied) =>
    let s := s.resetAfterApplied action
    if T.validates action then
      s.startValidation action previousThreadCount s.currentBaselineIops applied
        (T.validationSamplePolls (action.target.getD previousThreadCount))
    else s.resetBaselineWindow applied

/-! ## The engine over all VMs -/

/-- `evaluate`: the VM's state is created on first use -/
def evaluate (states : VmId → Option InstanceState) (i : Instance) (context : EngineTickContext) :
    (VmId → Option InstanceState) × ScaleAction :=
  let (s, action) := T.evaluateInstance ((states i.id).getD .new) i.status context
  (Function.update states i.id (some s), action)

def onApplied (states : VmId → Option InstanceState) (id : VmId) (outcome : AppliedOutcome) :
    VmId → Option InstanceState :=
  match states id with
  | none => states
  | some s => Function.update states id (some (T.applyOutcome s outcome))

def onInstanceAdded (states : VmId → Option InstanceState) (i : Instance) : VmId → Option InstanceState :=
  Function.update states i.id (some ((states i.id).getD .new))

def onInstanceRemoved (states : VmId → Option InstanceState) (id : VmId) : VmId → Option InstanceState :=
  Function.update states id none

end ThresholdEngine

/-- the threshold engine behind the engine interface, with the default `evaluate_fleet` -/
def thresholdEngine (T : ThresholdEngine) : ScalingEngine where
  State := VmId → Option InstanceState
  evaluateFleet states fleet context := evaluateFleetDefault T.evaluate states context fleet
  onApplied := T.onApplied
  onInstanceAdded := ThresholdEngine.onInstanceAdded
  onInstanceRemoved := ThresholdEngine.onInstanceRemoved

theorem ThresholdConfig.validate_ok {cfg : ThresholdConfig} (h : cfg.validate = .ok ()) :
    (0 < cfg.scaleUpThreshold ∧ cfg.scaleUpThreshold ≤ 1) ∧ (0 ≤ cfg.scaleUpMinGain ∧ cfg.scaleUpMinGain ≤ 1) ∧
      0 ≤ cfg.scaleDownRevertDrop ∧ cfg.scaleDownRevertDrop ≤ 1 := by
  unfold ThresholdConfig.validate at h
  split_ifs at h with ht hg hd
  exact ⟨ht, hg, hd⟩

theorem ThresholdEngine.threshold_pos (T : ThresholdEngine) : 0 < T.cfg.scaleUpThreshold :=
  (ThresholdConfig.validate_ok T.valid).1.1

end IoThreadController
