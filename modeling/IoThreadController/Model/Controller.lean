/-
The controller (`controller.rs`): live inventory, the tick, and the D-Bus requests that change it.

Every operation returns the new state together with the list of its external effects in program order: backend calls,
file-system operations of the registry, and reports to the engine. The inventory is a map from ids to records; the hash
map's iteration order is part of the environment, as is everything that is read from outside (`TickEnv`).
-/
import IoThreadController.Model.Config
import IoThreadController.Model.Engine
import IoThreadController.Model.Ownership

namespace IoThreadController

inductive ControllerError where
  | backendClient (error : BackendClientError)
  | state (error : StateError)
  | threadCountError (text : String)
  | vmError (text : String)
deriving DecidableEq, Repr

def StateError.text : StateError → String
  | .io text => text
  | .serdeJson text => text
  | .vmError text => "VM error: " ++ text

/-- the `Display` text of a controller error -/
def ControllerError.text : ControllerError → String
  | .backendClient error => error
  | .state error => error.text
  | .threadCountError text => "Set thread count error: " ++ text
  | .vmError text => "VM error: " ++ text

structure HostCpuSample where
  busyTicks : ℕ
  totalTicks : ℕ
deriving DecidableEq, Repr

/-- host CPU utilisation between two cumulative samples -/
def hostCpuUtilisation (previous current : HostCpuSample) : ℚ :=
  let deltaBusy : ℚ := (current.busyTicks - previous.busyTicks : ℕ)
  let deltaTotal : ℚ := (current.totalTicks - previous.totalTicks : ℕ)
  if deltaTotal = 0 then 0 else clampUnit (deltaBusy / deltaTotal)

/-- who asked for a resize -/
inductive Origin where
  | automatic
  | manual
deriving DecidableEq, Repr

/-- one external effect of the daemon -/
inductive Effect where
  | getSnapshot (client : ClientId)
  | setThreadCount (client : ClientId) (vm : VmId) (count : ℕ) (origin : Origin)
  | close (client : ClientId)
  | fs (op : FsOp)
  /-- `on_applied` of the engine -/
  | report (vm : VmId) (outcome : AppliedOutcome)
deriving DecidableEq

structure Controller (E : ScalingEngine) where
  cfg : Config
  engine : E.State
  vmOwnership : VmOwnership := {}
  instances : VmId → Option Instance := fun _ => none
  tickIndex : ℕ := 0
  lastHostCpu : Option HostCpuSample := none
  hostCpuUtil : ℚ := 0
  psi : PsiSample := {}

/-- clock readings and backend answer of one actuation attempt -/
structure AttemptEnv where
  /-- when the cooldown guard reads the clock -/
  checkedAt : Instant
  /-- the extra reading a dry run arms the cooldown with -/
  cooldownAt : Instant := checkedAt
  appliedAt : Instant
  /-- the client's answer to `set_thread_count` -/
  backend : Except BackendClientError Unit := .ok ()

/-- everything one tick reads from outside -/
structure TickEnv where
  hostCpu : Option HostCpuSample := none
  psi : PsiSample := {}
  now : Instant
  /-- iteration order of the inventory -/
  order : List VmId
  refresh : VmId → RefreshEnv
  saveFault : Option SaveFault := none
  attempt : VmId → AttemptEnv

/-- `order` lists every key of the map once -/
def Enumerates {α : Type} (order : List VmId) (m : VmId → Option α) : Prop :=
  order.Nodup ∧ ∀ id, id ∈ order ↔ (m id).isSome

/-- one entry of a tick's plan -/
structure PlanEntry where
  isUp : Bool
  sequence : ℕ
  instanceId : VmId
  action : ScaleAction
deriving DecidableEq, Repr

/-- the sort key order: shrinking before growing, then decision order -/
def PlanEntry.le (a b : PlanEntry) : Prop :=
  a.isUp < b.isUp ∨ a.isUp = b.isUp ∧ a.sequence ≤ b.sequence

instance (a b : PlanEntry) : Decidable (a.le b) := by unfold PlanEntry.le; infer_instance

/-- deduplicate the decisions, keep the ones that change a tracked VM's count, and number them -/
def buildPlan (instances : VmId → Option Instance) : List VmId → ℕ → List InstanceDecision → List PlanEntry
  | _, _, [] => []
  | planned, sequence, d :: decisions =>
    if d.instanceId ∈ planned then buildPlan instances planned (sequence + 1) decisions
    else
      let rest := buildPlan instances (d.instanceId :: planned) (sequence + 1) decisions
      match instances d.instanceId, d.decision.target with
      | some i, some target =>
        if target = i.status.threadCount then rest
        else ⟨decide (i.status.threadCount < target), sequence, d.instanceId, d.decision⟩ :: rest
      | _, _ => rest

/-- one VM in the reply to `GetStats` -/
structure VmStats where
  vm : VmId
  threadCount : ℕ
  manualScalingSticky : Bool
  scalingAllowed : Bool
  vcpuCount : ℕ
  perThreadUtil : ℚ
  readIoCount : ℕ
  writeIoCount : ℕ
  otherIoCount : ℕ
deriving DecidableEq, Repr

def vmStats (id : VmId) (status : InstanceStatus) : VmStats where
  vm := id
  threadCount := status.threadCount
  manualScalingSticky := status.manualScalingSticky
  scalingAllowed := status.scalingAllowed
  vcpuCount := status.vcpuCount
  perThreadUtil := status.perThreadUtil
  readIoCount := (status.perf.getD {}).readIoCount
  writeIoCount := (status.perf.getD {}).writeIoCount
  otherIoCount := (status.perf.getD {}).otherIoCount

namespace Controller

variable {E : ScalingEngine}

/-- `Controller::new` after the registry was loaded -/
def new (cfg : Config) (engine : E.State) (vmOwnership : VmOwnership) : Controller E :=
  { cfg, engine, vmOwnership }

def setInstance (c : Controller E) (i : Instance) : Controller E :=
  { c with instances := Function.update c.instances i.id (some i) }

/-- write a VM's status through its shared record -/
def putStatus (c : Controller E) (id : VmId) (i : Instance) (status : InstanceStatus) : Controller E :=
  { c with instances := Function.update c.instances id (some { i with status }) }

def fleet (c : Controller E) (order : List VmId) : List Instance := order.filterMap c.instances

/-! ## Inventory -/

/-- the first loop of `sync_instances`: close duplicates, add new records with their persisted classification -/
def addDiscovered (c : Controller E) : List Discovered → Controller E × List Effect × ℕ
  | [] => (c, [], 0)
  | d :: ds =>
    match c.instances d.id with
    | some _ =>
      let (c', effects, added) := c.addDiscovered ds
      (c', .close d.client :: effects, added)
    | none =>
      let status := { (Instance.new d).status with ownershipClassification := c.vmOwnership.classification d.id }
      let i : Instance := { Instance.new d with status }
      let (c', effects, added) :=
        ({ c with engine := E.onInstanceAdded c.engine i }.setInstance i).addDiscovered ds
      (c', effects, added + 1)

/-- the second loop: close and forget every id of the list -/
def removeStale (c : Controller E) : List VmId → Controller E × List Effect
  | [] => (c, [])
  | id :: ids =>
    match c.instances id with
    | none => c.removeStale ids
    | some i =>
      let (c', effects) := { c with
        instances := Function.update c.instances id none
        engine := E.onInstanceRemoved c.engine id }.removeStale ids
      (c', .close i.client :: effects)

/-- `sync_instances`; `order` is the key order after the additions -/
def syncInstances (c : Controller E) (discovered : List Discovered) (order : List VmId) :
    Controller E × List Effect × ℕ × ℕ :=
  let (c', effects, added) := c.addDiscovered discovered
  let stale := order.filter fun id => id ∉ discovered.map Discovered.id
  let (c'', effects') := c'.removeStale stale
  (c'', effects ++ effects', added, stale.length)

/-! ## Manual requests -/

def handleSetThreadCount (c : Controller E) (vm : VmId) (threads : ℕ) (sticky : Bool)
    (backend : Except BackendClientError Unit) : Controller E × List Effect × Except ControllerError Unit :=
  match c.instances vm with
  | none => (c, [], .error (.vmError "unknown VM {vm}"))
  | some i =>
    if threads = 0 then
      (c, [], .error (.threadCountError "target thread count must be greater than zero"))
    else if i.status.vcpuCount < threads then
      (c, [], .error (.threadCountError "target thread count {threads} > guest vCPU count {vcpu_count}"))
    else
      let call := [Effect.setThreadCount i.client vm threads .manual]
      match backend with
      | .error e => (c, call, .error (.backendClient e))
      | .ok () =>
        (c.putStatus vm i { i.status with threadCount := threads, manualScalingSticky := sticky }, call, .ok ())

/-- the loop of `handle_set_all_thread_counts` over sorted ids: successes and failure texts -/
def setEach (c : Controller E) (threads : ℕ) (sticky : Bool) (backend : VmId → Except BackendClientError Unit) :
    List VmId → Controller E × List Effect × ℕ × List String
  | [] => (c, [], 0, [])
  | id :: ids =>
    let (c', call, result) := c.handleSetThreadCount id threads sticky (backend id)
    let (c'', effects, succeeded, failures) := c'.setEach threads sticky backend ids
    match result with
    | .ok () => (c'', call ++ effects, succeeded + 1, failures)
    | .error e => (c'', call ++ effects, succeeded, (id ++ ": " ++ e.text) :: failures)

/-- `handle_set_all_thread_counts`: every VM in id order; the reply is the failure count and a summary -/
def handleSetAllThreadCounts (c : Controller E) (threads : ℕ) (sticky : Bool)
    (backend : VmId → Except BackendClientError Unit) (order : List VmId) :
    Controller E × List Effect × ℕ × String :=
  let ids := order.insertionSort (· ≤ ·)
  let (c', effects, succeeded, failures) := c.setEach threads sticky backend ids
  let summary := "set thread count to " ++ toString threads ++ (if sticky then " (sticky)" else "") ++ " on " ++
    toString succeeded ++ "/" ++ toString ids.length ++ " VMs"
  let summary := if failures = [] then summary else summary ++ "; failures: " ++ "; ".intercalate failures
  (c', effects, min failures.length u32Max, summary)

/-! ## Statistics -/

/-- the reply to `GetStats`, before it is written as JSON: the tick and every VM in iteration order -/
def getStats (c : Controller E) (order : List VmId) : ℕ × List VmStats :=
  (c.tickIndex, order.filterMap fun id => (c.instances id).map fun i => vmStats id i.status)

/-! ## Actuation -/

/-- the guard chain of `apply_engine_decision`, in source order; `none` lets the action through -/
def guard (c : Controller E) (status : InstanceStatus) (action : ScaleAction) (target : ℕ) (checkedAt : Instant) :
    Option BlockedReason :=
  if status.manualScalingSticky then some .manualOverride
  else if ¬ status.scalingPermitted then some .unmanagedVm
  else if target < c.cfg.minThreadCount then some .targetBelowMinimum
  else if c.cfg.maxThreadCount < target then some .targetExceedsMaximum
  else if status.vcpuCount < target then some .targetExceedsVcpuCount
  else if action.isOrdinary ∧ status.cooldownUntil.any fun until' => checkedAt < until' then some .cooldown
  else if status.threadCount < target ∧ action.isUp ∧ 0 < c.cfg.hostCpuScaleUpCeiling ∧
      c.cfg.hostCpuScaleUpCeiling ≤ c.hostCpuUtil then some .hostCpuCeiling
  else none

def report (c : Controller E) (vm : VmId) (outcome : AppliedOutcome) : Controller E :=
  { c with engine := E.onApplied c.engine vm outcome }

/-- `apply_engine_decision`: the flag says whether the action counts towards the per-poll cap -/
def applyEngineDecision (c : Controller E) (env : AttemptEnv) (id : VmId) (action : ScaleAction) :
    Controller E × List Effect × Bool :=
  match action.target, c.instances id with
  | none, _ | some _, none => (c, [], false)
  | some target, some i =>
    let previousCount := i.status.threadCount
    let previousIoCount := ioTotal i.status.perf
    match c.guard i.status action target env.checkedAt with
    | some reason =>
      let outcome := AppliedOutcome.blocked action reason
      (c.report id outcome, [.report id outcome], false)
    | none =>
      if c.cfg.dryRun then
        let status := { i.status with cooldownUntil := some (env.cooldownAt + fromSecs c.cfg.cooldownSecs) }
        let outcome := AppliedOutcome.dryRun action previousCount previousIoCount env.appliedAt
        ((c.putStatus id i status).report id outcome, [.report id outcome], true)
      else
        let call := Effect.setThreadCount i.client id target .automatic
        match env.backend with
        | .ok () =>
          let status := { i.status with
            threadCount := target
            cooldownUntil := some (env.appliedAt + fromSecs c.cfg.cooldownSecs) }
          let outcome := AppliedOutcome.success action previousCount previousIoCount env.appliedAt
          ((c.putStatus id i status).report id outcome, [call, .report id outcome], true)
        | .error error =>
          let outcome := AppliedOutcome.failed action error
          (c.report id outcome, [call, .report id outcome], false)

/-- apply the sorted plan; entries past the cap are skipped, and only applied ones count towards it -/
def applyPlan (c : Controller E) (attempt : VmId → AttemptEnv) (adjusted : ℕ) :
    List PlanEntry → Controller E × List Effect
  | [] => (c, [])
  | entry :: plan =>
    let cap := c.cfg.maxInstancesAdjustedPerPoll
    if 0 < cap ∧ cap ≤ adjusted then c.applyPlan attempt adjusted plan
    else
      let (c', effects, applied) := c.applyEngineDecision (attempt entry.instanceId) entry.instanceId entry.action
      let (c'', effects') := c'.applyPlan attempt (if applied then adjusted + 1 else adjusted) plan
      (c'', effects ++ effects')

/-! ## Tick -/

/-- the first lines of `tick`: sequence number, host CPU and pressure -/
def beginTick (c : Controller E) (env : TickEnv) : Controller E :=
  let c := { c with tickIndex := (c.tickIndex + 1) % 2 ^ 64 }
  let c := match env.hostCpu with
    | none => c
    | some current =>
      { c with
        hostCpuUtil := match c.lastHostCpu with
          | some previous => hostCpuUtilisation previous current
          | none => c.hostCpuUtil
        lastHostCpu := some current }
  if c.cfg.experimentalPsiMonitoring then { c with psi := env.psi } else c

def tickContext (c : Controller E) (now : Instant) : EngineTickContext where
  now
  minThreadCount := c.cfg.minThreadCount
  maxThreadCount := c.cfg.maxThreadCount
  hostCpuUtil := c.hostCpuUtil
  psi := c.psi
  tickIndex := c.tickIndex

/-- one VM's refresh in this tick -/
def refreshOne (c : Controller E) (env : TickEnv) (i : Instance) : Instance × Bool :=
  i.refreshState c.cfg.refreshCgroupOnEachRead (env.refresh i.id)

/-- refresh the whole fleet; a VM whose refresh failed leaves the inventory and the engine -/
def refreshFleet (c : Controller E) (env : TickEnv) : Controller E × List Effect :=
  let fleet := c.fleet env.order
  let failed := fleet.filter fun i => ! (c.refreshOne env i).2
  let refreshed id := match c.instances id with
    | none => none
    | some i => if (c.refreshOne env i).2 then some (c.refreshOne env i).1 else none
  ({ c with
      instances := refreshed
      engine := failed.foldl (fun st i => E.onInstanceRemoved st i.id) c.engine },
    fleet.flatMap fun i => .getSnapshot i.client :: if (c.refreshOne env i).2 then [] else [.close i.client])

/-- the loop of `persist_new_classifications`: the new registry and whether it changed -/
def recordNew (o : VmOwnership) (changed : Bool) : List Instance → Except ControllerError (VmOwnership × Bool)
  | [] => .ok (o, changed)
  | i :: fleet =>
    match i.status.ownershipClassification with
    | none => recordNew o changed fleet
    | some managed =>
      match o.classification i.id with
      | some persisted =>
        if persisted ≠ managed then .error (.vmError ("VM " ++ i.id ++ " ownership changed after classification"))
        else recordNew o changed fleet
      | none =>
        match o.record i.id managed with
        | .error e => .error (.state e)
        | .ok o' => recordNew o' true fleet

/-- `persist_new_classifications`: the registry is saved only when a VM was recorded -/
def persistNewClassifications (c : Controller E) (fault : Option SaveFault) (fleet : List Instance) :
    Controller E × List Effect × Except ControllerError Unit :=
  match recordNew c.vmOwnership false fleet with
  | .error e => (c, [], .error e)
  | .ok (o, changed) =>
    let c := { c with vmOwnership := o }
    if changed then
      match VmStateStore.save fault o with
      | (ops, .error e) => (c, ops.map .fs, .error (.state e))
      | (ops, .ok ()) => (c, ops.map .fs, .ok ())
    else (c, [], .ok ())

/-- the part of a tick before the engine is asked: begin, refresh, persist -/
def prepareTick (c : Controller E) (env : TickEnv) : Controller E × List Effect × Except ControllerError Unit :=
  let (c, effects) := (c.beginTick env).refreshFleet env
  let (c, effects', result) := c.persistNewClassifications env.saveFault (c.fleet env.order)
  (c, effects ++ effects', result)

/-- the engine's plan for a prepared tick: new engine state and decisions -/
def decideFleet (c : Controller E) (env : TickEnv) : Controller E × List InstanceDecision :=
  let (engine, decisions) := E.evaluateFleet c.engine (c.fleet env.order) (c.tickContext env.now)
  ({ c with engine }, decisions)

/-- the sorted plan of a tick's decisions -/
def planOf (c : Controller E) (decisions : List InstanceDecision) : List PlanEntry :=
  (buildPlan c.instances [] 0 decisions).insertionSort PlanEntry.le

/-- `tick`; an error ends the daemon -/
def tick (c : Controller E) (env : TickEnv) : Controller E × List Effect × Except ControllerError Unit :=
  match c.prepareTick env with
  | (c, effects, .error e) => (c, effects, .error e)
  | (c, effects, .ok ()) =>
    let (c, decisions) := c.decideFleet env
    let (c, effects') := c.applyPlan env.attempt 0 (c.planOf decisions)
    (c, effects ++ effects', .ok ())

end Controller

end IoThreadController
