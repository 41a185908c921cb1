/-
Measured and left-over utilisation.

A refresh without a backend value and without two CPU samples keeps the utilisation that was there, or the zero of a new
record, and the engine decides on it like on a measurement.

- `RefreshEnv.Measures`: the refresh produced a utilisation. `unmeasured_keeps`: otherwise the old value stays.
- `evaluate_counts_iff`: when an evaluation counts its tick towards the scale-down sustain.
- `UpBarred`, `DownBarred`: what keeps a left-over utilisation from being decided on.
- `utilisation_trusted_iff`: in every run, decisions rest on measurements exactly when every left-over value is barred from
  both directions.
-/
import IoThreadController.Fleet.Evaluation
import IoThreadController.Threshold.Bounds

namespace IoThreadController

/-! ## Measurements -/

/-- the refresh produced a utilisation: the backend supplied one, or two successive CPU samples span some time -/
def RefreshEnv.Measures (env : RefreshEnv) (status : InstanceStatus) (snapshot : ThreadPoolSnapshot) : Prop :=
  snapshot.perThreadUtil.isSome = true ∨
    match status.lastCpuSample, env.cpu with
    | some previous, some current => (wallTicks env.ticksPerSecond previous current).isSome = true
    | _, _ => False

/-- without a backend value and a span of time between two samples, the utilisation part changes nothing -/
theorem refreshUtilisation_none {env : RefreshEnv} {status : InstanceStatus} {cpu : Option CpuSample}
    (h : ∀ previous current, status.lastCpuSample = some previous → cpu = some current →
      wallTicks env.ticksPerSecond previous current = none) :
    refreshUtilisation env status none cpu = status := by
  unfold refreshUtilisation
  cases hprev : status.lastCpuSample with
  | none => rfl
  | some previous =>
    cases hcur : cpu with
    | none => rfl
    | some current =>
      dsimp only
      rw [h previous current hprev hcur]

/-- without a measurement a refresh keeps the utilisation of the record -/
theorem unmeasured_keeps {env : RefreshEnv} {status : InstanceStatus} {snapshot : ThreadPoolSnapshot}
    (h : ¬ env.Measures status snapshot) (refreshCgroup : Bool) :
    (applyThreadPoolSnapshot refreshCgroup env status snapshot).perThreadUtil = status.perThreadUtil := by
  simp only [RefreshEnv.Measures, not_or] at h
  obtain ⟨hbackend, hcpu⟩ := h
  have hnone : snapshot.perThreadUtil = none := by simpa using hbackend
  have hticks : ∀ previous current, status.lastCpuSample = some previous → env.cpu = some current →
      wallTicks env.ticksPerSecond previous current = none := by
    intro previous current hprev hcur
    rw [hprev, hcur] at hcpu
    simpa using hcpu
  obtain ⟨-, -, -, -, hlast, hutil⟩ := updatePerfRates_frame
    { status with ownershipClassification := some (status.ownershipClassification.getD
        (env.initialPoolIsManaged snapshot.threadCount snapshot.vcpuCount)) } snapshot.perf env.now
  unfold applyThreadPoolSnapshot
  simp only [hnone, Option.map_none, Option.isNone_none, if_true]
  rw [refreshUtilisation_none]
  · exact hutil
  · intro previous current hprev hcur
    exact hticks previous current (hlast.symm.trans hprev) hcur

namespace ThresholdEngine

variable {T : ThresholdEngine} {s : InstanceState} {status : InstanceStatus} {context : EngineTickContext}

/-- the evaluation counts this tick as one of low utilisation -/
def CountsLowUtil (T : ThresholdEngine) (s : InstanceState) (status : InstanceStatus) (context : EngineTickContext) :
    Prop :=
  s.pendingValidation = none ∧
    T.scaleDownTarget status.perThreadUtil status.threadCount context.minThreadCount < status.threadCount ∧
    s.lowUtilPolls + 1 < 2 ^ 32

theorem settle_lowUtil {pending : PendingValidation} {util : ℚ} {sample : IoSample} :
    (T.settleValidation s pending util sample).1.lowUtilPolls = s.lowUtilPolls := by
  cases h : T.validationRevertTarget (iopsRate pending.validationStart sample) util pending with
  | none => rw [settle_kept h]; cases pending.action <;> rfl
  | some t =>
    rcases (revertTarget_some h).2 with ⟨n, ha⟩ | ⟨n, ha⟩
    · rw [settle_failed_up ha h]
    · rw [settle_failed_down ha h]

theorem evaluate_counts_iff :
    s.lowUtilPolls < (T.evaluateInstance s status context).1.lowUtilPolls ↔ T.CountsLowUtil s status context := by
  unfold CountsLowUtil
  cases hp : s.pendingValidation with
  | some pending =>
    have hsame : (T.evaluateInstance s status context).1.lowUtilPolls = s.lowUtilPolls := by
      by_cases hpos : 0 < pending.pollsRemaining
      · rw [evaluate_waiting hp hpos]
      · rw [evaluate_due hp (by omega), settle_lowUtil]
    rw [hsame]
    simp
  | none =>
    rw [evaluate_free hp]
    dsimp only
    rw [freeState_lowUtil]
    split_ifs with hdown
    · simp only [hdown, true_and]
      omega
    · simp [hdown]

/-- nothing asks for another worker: the hold or throttling stands in the way, the pool is at the maximum, or the
utilisation is not above the threshold -/
def UpBarred (T : ThresholdEngine) (s : InstanceState) (status : InstanceStatus) (context : EngineTickContext) : Prop :=
  s.holdBlocks T.polls.postRevertUpRecovery = true ∨ context.maxThreadCount ≤ status.threadCount ∨
    status.perThreadUtil ≤ T.cfg.scaleUpThreshold ∨
    T.cfg.blockScaleUpWhenCgroupThrottled = true ∧ 0 < status.throttledUsecDelta

/-- nothing asks for fewer workers: the utilisation fits no smaller pool. The second case is that of a `u32` counter that
wraps, to less than the sustain or under saturation -/
def DownBarred (T : ThresholdEngine) (s : InstanceState) (status : InstanceStatus) (context : EngineTickContext) : Prop :=
  T.scaleDownTarget status.perThreadUtil status.threadCount context.minThreadCount = status.threadCount ∨
    2 ^ 32 ≤ s.lowUtilPolls + 1 ∧ (T.Saturated s status context ∨
      (s.lowUtilPolls + 1) % 2 ^ 32 < T.scaleDownSustainPolls s.consecutiveFailedDowns)

/-- a validation is pending, or the utilisation of the status asks neither for more workers nor for fewer -/
def LeavesOpen (T : ThresholdEngine) (s : InstanceState) (status : InstanceStatus) (context : EngineTickContext) :
    Prop :=
  s.pendingValidation ≠ none ∨ T.UpBarred s status context ∧ T.DownBarred s status context

theorem upBarred_iff (h : s.pendingValidation = none) : T.UpBarred s status context ↔ ¬ T.UpReached s status context := by
  unfold UpBarred UpReached Saturated
  cases hhold : s.holdBlocks T.polls.postRevertUpRecovery with
  | true => simp
  | false =>
    constructor
    · intro hbarred hup
      obtain ⟨-, ⟨-, hmax, hutil⟩, hthrottled⟩ := hup
      rcases hbarred with hbarred | hbarred | hbarred | hbarred
      · cases hbarred
      · omega
      · exact absurd hutil (not_lt.2 hbarred)
      · exact hthrottled hbarred
    · intro hup
      by_contra hbarred
      simp only [not_or, not_le] at hbarred
      obtain ⟨-, hmax, hutil, hthrottled⟩ := hbarred
      exact hup ⟨h, ⟨rfl, hmax, hutil⟩, hthrottled⟩

theorem downBarred_iff (h : s.pendingValidation = none) :
    T.DownBarred s status context ↔ ¬ T.DownReached s status context ∧ ¬ T.CountsLowUtil s status context := by
  have hle : T.scaleDownTarget status.perThreadUtil status.threadCount context.minThreadCount ≤ status.threadCount :=
    scaleDownTarget_le_self T _ _ _
  unfold DownBarred DownReached DownReachedWith CountsLowUtil
  rcases hle.lt_or_eq with hlt | heq
  · -- the tick is one of low utilisation
    have hne := hlt.ne
    constructor
    · intro hbarred
      rcases hbarred with hbarred | ⟨hwrap, hbarred⟩
      · exact absurd hbarred hne
      · refine ⟨fun hdown => ?_, fun hcounts => by omega⟩
        obtain ⟨-, hsaturated, -, hsustain⟩ := hdown
        rcases hbarred with hbarred | hbarred
        · exact hsaturated hbarred
        · omega
    · intro hopen
      obtain ⟨hdown, hcounts⟩ := hopen
      have hwrap : 2 ^ 32 ≤ s.lowUtilPolls + 1 := by
        by_contra hwrap
        exact hcounts ⟨h, hlt, not_le.1 hwrap⟩
      refine Or.inr ⟨hwrap, ?_⟩
      by_contra hbarred
      rw [not_or, not_lt] at hbarred
      exact hdown ⟨h, hbarred.1, hlt, hbarred.2⟩
  · simp [heq]

theorem leavesOpen_iff :
    T.LeavesOpen s status context ↔ (T.evaluateInstance s status context).2.isOrdinary = false ∧
      ¬ s.lowUtilPolls < (T.evaluateInstance s status context).1.lowUtilPolls := by
  have hunreached : T.LeavesOpen s status context ↔
      ¬ T.UpReached s status context ∧ ¬ T.DownReached s status context ∧ ¬ T.CountsLowUtil s status context := by
    unfold LeavesOpen
    by_cases hp : s.pendingValidation = none
    · rw [upBarred_iff hp, downBarred_iff hp]
      simp [hp]
    · exact ⟨fun _ => ⟨fun hu => hp hu.1, fun hd => hp hd.1, fun hc => hp hc.1⟩, fun _ => Or.inl hp⟩
  rw [evaluate_counts_iff, hunreached]
  constructor
  · intro hopen
    obtain ⟨hu, hd, hc⟩ := hopen
    refine ⟨?_, hc⟩
    cases ha : (T.evaluateInstance s status context).2 with
    | none => rfl
    | revert t => rfl
    | up t => exact absurd (evaluate_up.1 ha).1 hu
    | down t => exact absurd (evaluate_down.1 ha).1 hd
  · intro hopen
    obtain ⟨hord, hc⟩ := hopen
    refine ⟨?_, ?_, hc⟩
    · intro hu
      rw [evaluate_up.2 ⟨hu, rfl⟩] at hord; cases hord
    · intro hd
      rw [evaluate_down.2 ⟨hd, rfl⟩] at hord; cases hord

end ThresholdEngine

/-! ## Runs -/

variable {T : ThresholdEngine}

/-- the tick evaluates `id`, tracked as `i`, on this snapshot -/
def EvaluatedOn (c : Controller (thresholdEngine T)) (env : TickEnv) (id : VmId) (i : Instance)
    (snapshot : ThreadPoolSnapshot) (r : InstanceState × ScaleAction) : Prop :=
  (c.tick env).2.2 = .ok () ∧ c.instances id = some i ∧ (env.refresh i.id).snapshot = .ok snapshot ∧
    c.evaluation env id = some r

/-- every evaluation of the event that proposes a scale-up or scale-down, or counts the tick as low, is measured -/
def UtilisationTrusted (T : ThresholdEngine) (p : Option (Controller (thresholdEngine T))) (ev : Event) : Prop :=
  ∀ c env id i snapshot r, p = some c → ev = .tick env → EvaluatedOn c env id i snapshot r →
    (r.2.isOrdinary = true ∨ (c.stateOf id).lowUtilPolls < r.1.lowUtilPolls) →
    (env.refresh i.id).Measures i.status snapshot

/-- every evaluation of the event is measured, or on the utilisation left over in the record it is barred from both
directions -/
def UtilisationUsable (T : ThresholdEngine) (p : Option (Controller (thresholdEngine T))) (ev : Event) : Prop :=
  ∀ c env id i snapshot r, p = some c → ev = .tick env → EvaluatedOn c env id i snapshot r →
    (env.refresh i.id).Measures i.status snapshot ∨
      T.LeavesOpen (c.stateOf id)
        { applyThreadPoolSnapshot c.cfg.refreshCgroupOnEachRead (env.refresh i.id) i.status snapshot with
          perThreadUtil := i.status.perThreadUtil } (c.contextOf env)

/-- the evaluation of an unmeasured VM runs on the utilisation that was left over -/
theorem evaluation_unmeasured {c : Controller (thresholdEngine T)} {env : TickEnv} {id : VmId} {i : Instance}
    {snapshot : ThreadPoolSnapshot} {r : InstanceState × ScaleAction} (h : EvaluatedOn c env id i snapshot r)
    (hm : ¬ (env.refresh i.id).Measures i.status snapshot) :
    r = T.evaluateInstance (c.stateOf id)
      { applyThreadPoolSnapshot c.cfg.refreshCgroupOnEachRead (env.refresh i.id) i.status snapshot with
        perThreadUtil := i.status.perThreadUtil } (c.contextOf env) := by
  obtain ⟨-, hi, hs, hr⟩ := h
  obtain ⟨j, hrec, -, rfl⟩ := Controller.evaluation_some hr
  obtain ⟨k, s', hk, hs', rfl⟩ := Controller.refreshedRecord_some hrec
  have hki : k = i := Option.some.inj (hk.symm.trans hi)
  subst hki
  have hss : s' = snapshot := Except.ok.inj (hs'.symm.trans hs)
  subst hss
  congr 1
  have hkeep := unmeasured_keeps hm c.cfg.refreshCgroupOnEachRead
  rw [← hkeep]

/-- in every run of a process: decisions rest on measurements exactly when a left-over value meets a pending validation, or
is barred from scaling up and fits no smaller pool -/
theorem utilisation_trusted_iff (T : ThresholdEngine) (p : Option (Controller (thresholdEngine T))) (es : List Event) :
    Core.Along procStep (UtilisationTrusted T) p es ↔ Core.Along procStep (UtilisationUsable T) p es := by
  refine Core.along_iff_of_inv (fun _ => True) (fun _ _ _ _ => trivial) (fun p ev _ _ => ?_) trivial
    (Core.along_true _ _ _)
  constructor
  · intro h c env id i snapshot r hp hev he
    by_cases hm : (env.refresh i.id).Measures i.status snapshot
    · exact Or.inl hm
    · refine Or.inr (ThresholdEngine.leavesOpen_iff.2 ?_)
      rw [← evaluation_unmeasured he hm]
      have hnot := mt (h c env id i snapshot r hp hev he) hm
      rw [not_or] at hnot
      exact ⟨by simpa using hnot.1, hnot.2⟩
  · intro h c env id i snapshot r hp hev he hact
    rcases h c env id i snapshot r hp hev he with hm | hopen
    · exact hm
    · by_contra hm
      obtain ⟨hord, hcount⟩ := ThresholdEngine.leavesOpen_iff.1 hopen
      rw [← evaluation_unmeasured he hm] at hord hcount
      rcases hact with hact | hact
      · rw [hord] at hact; simp at hact
      · exact hcount hact

/-- a VM whose first two refreshes cannot measure it is counted as idle at the first one -/
theorem unmeasured_counted :
    ¬ Core.Along procStep (UtilisationTrusted ThresholdEngine.standard)
      (some (Controller.new {} (fun _ => none) {} : Controller (thresholdEngine ThresholdEngine.standard)))
      [.sync [⟨"vm", 1⟩] ["vm"], .tick (.single "vm" 0 0 (.ok { threadCount := 4, vcpuCount := 8 }))] := by
  intro h
  have hm := h.2.1 _ _ "vm" _ { threadCount := 4, vcpuCount := 8 } _ rfl rfl
    ⟨by decide +kernel, rfl, rfl, rfl⟩ (Or.inr (by decide +kernel))
  rcases hm with hm | hm
  · simp at hm
  · exact hm

end IoThreadController
