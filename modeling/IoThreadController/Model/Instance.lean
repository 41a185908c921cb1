/-
One tracked VM (`instance.rs`): its latest status and the refresh that folds a backend snapshot into it.

A refresh reads the backend client, `/proc` and the clock. All of these readings are one `RefreshEnv`, so
`Instance.refreshState` is a function of the record and the environment.
-/
import IoThreadController.Model.Rolling

namespace IoThreadController

/-- identity of one backend client object; every discovery pass makes new ones -/
abbrev ClientId := ℕ

/-- text of an error returned by a backend client -/
abbrev BackendClientError := String

structure SnapshotLatency where
  p50 : ℕ
  p95 : ℕ
  p99 : ℕ
  avg : ℕ
deriving DecidableEq, Repr

/-- cumulative counters of one snapshot -/
structure InstancePerfSample where
  readIoCount : ℕ := 0
  writeIoCount : ℕ := 0
  otherIoCount : ℕ := 0
  readBytesTotal : ℕ := 0
  writeBytesTotal : ℕ := 0
  readLatencyUs : Option SnapshotLatency := none
  writeLatencyUs : Option SnapshotLatency := none
  perVqDepth : Option (List ℕ) := none
deriving DecidableEq, Repr

def InstancePerfSample.totalIoCount (perf : InstancePerfSample) : ℕ :=
  satAdd (satAdd perf.readIoCount perf.writeIoCount) perf.otherIoCount

/-- the operation total of a snapshot; a snapshot without counters reads as zero -/
def ioTotal : Option InstancePerfSample → ℕ
  | some perf => perf.totalIoCount
  | none => 0

structure ThreadPoolSnapshot where
  threadCount : ℕ
  vcpuCount : ℕ
  perf : Option InstancePerfSample := none
  /-- backend-computed utilisation; `none` asks for `/proc` sampling -/
  perThreadUtil : Option ℚ := none
deriving DecidableEq, Repr

structure TaskCpuSample where
  tid : ℤ
  name : String
  cpuTicks : ℕ
deriving DecidableEq, Repr

structure CpuSample where
  cpuTicks : ℕ
  sampledAt : Instant
  perWorker : List TaskCpuSample
deriving DecidableEq, Repr

/-- the cgroup counter that scaling reads: cumulative throttled microseconds -/
structure CgroupSample where
  throttledUsec : ℕ
deriving DecidableEq, Repr

/-- most recent mutable state of one VM -/
structure InstanceStatus where
  threadCount : ℕ := 0
  vcpuCount : ℕ := 0
  alive : Bool := false
  scalingAllowed : Bool := false
  /-- persisted ownership, `none` before the first usable snapshot of an unknown VM -/
  ownershipClassification : Option Bool := none
  cooldownUntil : Option Instant := none
  manualScalingSticky : Bool := false
  perf : Option InstancePerfSample := none
  perThreadUtil : ℚ := 0
  lastCpuSample : Option CpuSample := none
  perWorkerUtil : List ℚ := []
  lastWorkerNames : Option (List String) := none
  cgroup : Option CgroupSample := none
  throttledUsecDelta : ℕ := 0
  rolling : RollingMetrics := {}
  previousPerfTime : Option Instant := none
  previousReadIoCount : ℕ := 0
  previousWriteIoCount : ℕ := 0
  previousOtherIoCount : ℕ := 0
  previousReadBytesTotal : ℕ := 0
  previousWriteBytesTotal : ℕ := 0
  readIops : ℕ := 0
  writeIops : ℕ := 0
  otherIops : ℕ := 0
  readLatencyUs : Option SnapshotLatency := none
  writeLatencyUs : Option SnapshotLatency := none
  perVqDepth : Option (List ℕ) := none
  readBytesPerSecond : ℕ := 0
  writeBytesPerSecond : ℕ := 0
deriving DecidableEq, Repr

/-- the `scaling_allowed()` method; the field of the same name is a different notion -/
def InstanceStatus.scalingPermitted (status : InstanceStatus) : Bool := status.ownershipClassification.getD false

structure Instance where
  id : VmId
  client : ClientId
  status : InstanceStatus
deriving DecidableEq, Repr

/-- one VM as a discovery pass reports it, before it becomes a record -/
structure Discovered where
  id : VmId
  client : ClientId
deriving DecidableEq, Repr

/-- `Instance::new` -/
def Instance.new (d : Discovered) : Instance := ⟨d.id, d.client, { scalingAllowed := true }⟩

/-! ## Utilisation from `/proc` samples -/

/-- counters of the previous sample by task; a later duplicate of a task wins -/
def previousByTid (previous : List TaskCpuSample) (tid : ℤ) : Option (String × ℕ) :=
  (previous.reverse.find? fun task => task.tid = tid).map fun task => (task.name, task.cpuTicks)

/-- match task counters by task and name, and convert deltas to fractions; a decreased counter is skipped -/
def computePerWorkerUtil (previous current : List TaskCpuSample) (wallTicks : ℚ) : List (String × ℚ) :=
  current.filterMap fun task =>
    match previousByTid previous task.tid with
    | none => none
    | some (name, previousTicks) =>
      if name = task.name ∧ previousTicks ≤ task.cpuTicks then
        some (task.name, clampUnit (((task.cpuTicks - previousTicks : ℕ) : ℚ) / wallTicks))
      else none

/-- store one set of per-worker fractions and their mean -/
def updateWorkerUtilisation (status : InstanceStatus) (workerUtil : List (String × ℚ)) : InstanceStatus :=
  let names := (workerUtil.map Prod.fst).insertionSort (· ≤ ·)
  let utils := workerUtil.map Prod.snd
  { status with
    lastWorkerNames := some names
    perWorkerUtil := utils
    perThreadUtil := if utils = [] then 0 else utils.sum / utils.length }

/-- the wall time between two CPU samples in clock ticks, when it is positive -/
def wallTicks (ticksPerSecond : ℕ) (previous current : CpuSample) : Option ℚ :=
  ((checkedDurationSince current.sampledAt previous.sampledAt).map fun elapsed => asSecs elapsed * ticksPerSecond).filter
    fun ticks => 0 < ticks

/-! ## Refresh -/

/-- everything one refresh reads from outside -/
structure RefreshEnv where
  /-- the client's answer to `get_thread_pool_snapshot` -/
  snapshot : Except BackendClientError ThreadPoolSnapshot
  /-- `read_cpu_sample`, consulted only when the backend supplies no utilisation -/
  cpu : Option CpuSample := none
  /-- `read_cgroup_sample` -/
  cgroup : Option CgroupSample := none
  /-- the client's answer to `initial_pool_is_managed` -/
  initialPoolIsManaged : ℕ → ℕ → Bool := fun _ _ => true
  now : Instant := 0
  ticksPerSecond : ℕ := 100

/-- one counter's rate over `elapsedNs`; the final cast to `u64` truncates -/
def perfRate (elapsedNs current previous : ℕ) : ℕ := (current - previous) * nanosPerSec / elapsedNs % 2 ^ 64

/-- `update_perf_rates`: per-tick rates from cumulative counters, all zero when there are none -/
def updatePerfRates (status : InstanceStatus) (perf : Option InstancePerfSample) (now : Instant) : InstanceStatus :=
  let p := perf.getD {}
  let elapsedNs := match status.previousPerfTime with
    | some previousTime => (checkedDurationSince now previousTime).getD 0
    | none => 0
  let rated := if 0 < elapsedNs then
      { status with
        readIops := perfRate elapsedNs p.readIoCount status.previousReadIoCount
        writeIops := perfRate elapsedNs p.writeIoCount status.previousWriteIoCount
        otherIops := perfRate elapsedNs p.otherIoCount status.previousOtherIoCount
        readBytesPerSecond := perfRate elapsedNs p.readBytesTotal status.previousReadBytesTotal
        writeBytesPerSecond := perfRate elapsedNs p.writeBytesTotal status.previousWriteBytesTotal }
    else status
  { rated with
    previousPerfTime := some now
    previousReadIoCount := p.readIoCount
    previousWriteIoCount := p.writeIoCount
    previousOtherIoCount := p.otherIoCount
    previousReadBytesTotal := p.readBytesTotal
    previousWriteBytesTotal := p.writeBytesTotal }

/-- the utilisation part of a refresh: backend value, else two successive CPU samples, else what was there -/
def refreshUtilisation (env : RefreshEnv) (status : InstanceStatus) (backendUtil : Option ℚ)
    (cpu : Option CpuSample) : InstanceStatus :=
  match backendUtil with
  | some util => { status with perWorkerUtil := [], lastWorkerNames := none, perThreadUtil := util }
  | none =>
    match status.lastCpuSample, cpu with
    | some previous, some current =>
      match wallTicks env.ticksPerSecond previous current with
      | some ticks => updateWorkerUtilisation status (computePerWorkerUtil previous.perWorker current.perWorker ticks)
      | none => status
    | _, _ => status

/-- `apply_thread_pool_snapshot` -/
def applyThreadPoolSnapshot (refreshCgroup : Bool) (env : RefreshEnv) (status : InstanceStatus)
    (snapshot : ThreadPoolSnapshot) : InstanceStatus :=
  let cpu := if snapshot.perThreadUtil.isNone then env.cpu else none
  let previousCgroup := status.cgroup
  let cgroup := if refreshCgroup ∨ previousCgroup.isNone then env.cgroup else previousCgroup
  let classified := { status with
    ownershipClassification := some (status.ownershipClassification.getD
      (env.initialPoolIsManaged snapshot.threadCount snapshot.vcpuCount)) }
  let rated := updatePerfRates classified snapshot.perf env.now
  let copied := { rated with
    threadCount := snapshot.threadCount
    vcpuCount := snapshot.vcpuCount
    perf := snapshot.perf
    readLatencyUs := snapshot.perf.bind InstancePerfSample.readLatencyUs
    writeLatencyUs := snapshot.perf.bind InstancePerfSample.writeLatencyUs
    perVqDepth := snapshot.perf.bind InstancePerfSample.perVqDepth
    alive := true }
  let backendUtil := snapshot.perThreadUtil.map clampUnit
  let sampled := refreshUtilisation env copied backendUtil cpu
  let ioOpsTotal := ioTotal snapshot.perf
  let rolling := match backendUtil, cpu with
    | some util, _ => sampled.rolling.pushFromBackendUtil env.now ioOpsTotal util snapshot.threadCount
    | none, some current => sampled.rolling.pushFromProcfsDelta env.ticksPerSecond env.now ioOpsTotal current.cpuTicks
    | none, none => sampled.rolling
  { sampled with
    rolling
    lastCpuSample := if backendUtil.isNone then cpu else none
    throttledUsecDelta := match previousCgroup, cgroup with
      | some previous, some current => current.throttledUsec - previous.throttledUsec
      | _, _ => 0
    cgroup }

/-- `refresh_state`: the refreshed record and whether the refresh succeeded. A failed refresh also closes the client;
the caller records that effect. -/
def Instance.refreshState (i : Instance) (refreshCgroup : Bool) (env : RefreshEnv) : Instance × Bool :=
  match env.snapshot with
  | .ok snapshot => ({ i with status := applyThreadPoolSnapshot refreshCgroup env i.status snapshot }, true)
  | .error _ => ({ i with status := { i.status with alive := false } }, false)

/-! ## What a refresh leaves alone -/

section Refresh

variable (refreshCgroup : Bool) (env : RefreshEnv) (status : InstanceStatus)

@[simp] theorem updatePerfRates_frame (perf : Option InstancePerfSample) (now : Instant) :
    (updatePerfRates status perf now).ownershipClassification = status.ownershipClassification ∧
    (updatePerfRates status perf now).manualScalingSticky = status.manualScalingSticky ∧
    (updatePerfRates status perf now).cooldownUntil = status.cooldownUntil ∧
    (updatePerfRates status perf now).scalingAllowed = status.scalingAllowed ∧
    (updatePerfRates status perf now).lastCpuSample = status.lastCpuSample ∧
    (updatePerfRates status perf now).perThreadUtil = status.perThreadUtil := by
  unfold updatePerfRates
  dsimp only
  split_ifs <;> simp

@[simp] theorem refreshUtilisation_frame (backendUtil : Option ℚ) (cpu : Option CpuSample) :
    (refreshUtilisation env status backendUtil cpu).ownershipClassification = status.ownershipClassification ∧
    (refreshUtilisation env status backendUtil cpu).manualScalingSticky = status.manualScalingSticky ∧
    (refreshUtilisation env status backendUtil cpu).cooldownUntil = status.cooldownUntil ∧
    (refreshUtilisation env status backendUtil cpu).scalingAllowed = status.scalingAllowed ∧
    (refreshUtilisation env status backendUtil cpu).threadCount = status.threadCount ∧
    (refreshUtilisation env status backendUtil cpu).vcpuCount = status.vcpuCount ∧
    (refreshUtilisation env status backendUtil cpu).perf = status.perf := by
  unfold refreshUtilisation
  repeat' split
  all_goals simp [updateWorkerUtilisation]

variable (snapshot : ThreadPoolSnapshot)

@[simp] theorem applyThreadPoolSnapshot_threadCount :
    (applyThreadPoolSnapshot refreshCgroup env status snapshot).threadCount = snapshot.threadCount := by
  simp [applyThreadPoolSnapshot]

@[simp] theorem applyThreadPoolSnapshot_vcpuCount :
    (applyThreadPoolSnapshot refreshCgroup env status snapshot).vcpuCount = snapshot.vcpuCount := by
  simp [applyThreadPoolSnapshot]

@[simp] theorem applyThreadPoolSnapshot_perf :
    (applyThreadPoolSnapshot refreshCgroup env status snapshot).perf = snapshot.perf := by
  simp [applyThreadPoolSnapshot]

@[simp] theorem applyThreadPoolSnapshot_sticky :
    (applyThreadPoolSnapshot refreshCgroup env status snapshot).manualScalingSticky = status.manualScalingSticky := by
  simp [applyThreadPoolSnapshot]

@[simp] theorem applyThreadPoolSnapshot_cooldown :
    (applyThreadPoolSnapshot refreshCgroup env status snapshot).cooldownUntil = status.cooldownUntil := by
  simp [applyThreadPoolSnapshot]

@[simp] theorem applyThreadPoolSnapshot_scalingAllowed :
    (applyThreadPoolSnapshot refreshCgroup env status snapshot).scalingAllowed = status.scalingAllowed := by
  simp [applyThreadPoolSnapshot]

/-- a refresh classifies an unclassified VM once and never reclassifies it -/
@[simp] theorem applyThreadPoolSnapshot_classification :
    (applyThreadPoolSnapshot refreshCgroup env status snapshot).ownershipClassification =
      some (status.ownershipClassification.getD
        (env.initialPoolIsManaged snapshot.threadCount snapshot.vcpuCount)) := by
  simp [applyThreadPoolSnapshot]

end Refresh

theorem Instance.refreshState_ok (i : Instance) (refreshCgroup : Bool) {env : RefreshEnv} {s : ThreadPoolSnapshot}
    (h : env.snapshot = .ok s) :
    i.refreshState refreshCgroup env =
      ({ i with status := applyThreadPoolSnapshot refreshCgroup env i.status s }, true) := by
  simp only [Instance.refreshState, h]

theorem Instance.refreshState_error (i : Instance) (refreshCgroup : Bool) {env : RefreshEnv} {e : BackendClientError}
    (h : env.snapshot = .error e) :
    i.refreshState refreshCgroup env = ({ i with status := { i.status with alive := false } }, false) := by
  simp only [Instance.refreshState, h]

@[simp] theorem Instance.refreshState_id (i : Instance) (refreshCgroup : Bool) (env : RefreshEnv) :
    (i.refreshState refreshCgroup env).1.id = i.id := by
  unfold Instance.refreshState; split <;> rfl

@[simp] theorem Instance.refreshState_client (i : Instance) (refreshCgroup : Bool) (env : RefreshEnv) :
    (i.refreshState refreshCgroup env).1.client = i.client := by
  unfold Instance.refreshState; split <;> rfl

end IoThreadController
