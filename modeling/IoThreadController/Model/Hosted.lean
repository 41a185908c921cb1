/-
One QEMU VM under a running daemon: the controller with its fleet, and the client and the QEMU of this VM.

What the controller hears about the VM are its client's answers, and what it calls is carried out on the VM's QEMU. The rest
of the fleet is part of the events, as in a run of the controller alone. A VM that is found again gets a new client, which
knows nothing yet.
-/
import IoThreadController.Model.Daemon
import IoThreadController.Model.Session

namespace IoThreadController

variable {E : ScalingEngine}

/-! ## The answers of one client -/

/-- the snapshot of the VM is `answer` -/
def TickEnv.withSnapshot (env : TickEnv) (vm : VmId) (answer : Except BackendClientError ThreadPoolSnapshot) : TickEnv :=
  { env with refresh := Function.update env.refresh vm { env.refresh vm with snapshot := answer } }

/-- the answer to a resize of the VM -/
def TickEnv.withBackend (env : TickEnv) (vm : VmId) (answer : Except BackendClientError Unit) : TickEnv :=
  { env with attempt := Function.update env.attempt vm { env.attempt vm with backend := answer } }

/-- the count that the plan of a tick has for the VM -/
def Controller.planned (c : Controller E) (env : TickEnv) (vm : VmId) : Option ℕ :=
  let (c, _, _) := c.prepareTick env
  let (c, decisions) := c.decideFleet env
  ((c.planOf decisions).find? fun entry => entry.instanceId = vm).bind fun entry => entry.action.target

/-- a call to `set_thread_count` of the VM's client -/
def Effect.resizes (vm : VmId) : Effect → Bool
  | .setThreadCount _ id _ _ => id = vm
  | .getSnapshot _ | .close _ | .fs _ | .report .. => false

/-! ## The machine -/

structure HostedVm (E : ScalingEngine) where
  /-- none is a daemon that has ended -/
  daemon : Option (Controller E)
  /-- the client of the VM's record, or of its last one, with the VM's QEMU -/
  client : QemuVmClient

def HostedVm.qemu (x : HostedVm E) : Qemu := x.client.base.client.qemu

/-- a tick: what the client's snapshot reads, and the failures that strike a resize -/
structure HostedTick where
  env : TickEnv
  monitor : SnapshotEnv
  fault : ℕ → Option QemuError := fun _ => none

inductive HostedEvent where
  | tick (tick : HostedTick)
  /-- a discovery, with the counter and the vCPUs of a client that it may make for the VM -/
  | sync (discovered : List Discovered) (order : List VmId) (extra vcpuCount : ℕ)
  /-- `backend` is the answer of another VM's client -/
  | setThreadCount (id : VmId) (threads : ℕ) (sticky : Bool) (backend : Except BackendClientError Unit)
      (fault : ℕ → Option QemuError)
  /-- `order` has the VM once at most -/
  | setAllThreadCounts (threads : ℕ) (sticky : Bool) (backend : VmId → Except BackendClientError Unit) (order : List VmId)
      (fault : ℕ → Option QemuError)
  | query
  /-- QEMU is changed by somebody else -/
  | outside (qemu : Qemu)

section
variable (ticksPerSecond : ℕ) (vm : VmId)

/-- the client when the commands of a call fail as `fault` says, and its answer -/
def HostedVm.resize (client : QemuVmClient) (fault : ℕ → Option QemuError) (threads : ℕ) :
    QemuVmClient × Except BackendClientError Unit :=
  (client.begin fault).setThreadCount threads

/-- the daemon goes through an event; a resize of the VM that is part of it leaves the client `resized` -/
def HostedVm.act (c : Controller E) (event : Event) (client resized : QemuVmClient) : HostedVm E where
  daemon := procStep (some c) event
  client := if (c.step event).2.1.any (Effect.resizes vm) then resized else client

def HostedVm.tick (c : Controller E) (client : QemuVmClient) (t : HostedTick) : HostedVm E :=
  match c.instances vm with
  | none => { daemon := procStep (some c) (.tick t.env), client }
  | some _ =>
    let (client, snapshot) := client.getThreadPoolSnapshot ticksPerSecond t.monitor
    let env := t.env.withSnapshot vm snapshot
    let (resized, answer) := HostedVm.resize client t.fault ((c.planned env vm).getD 0)
    HostedVm.act vm c (.tick (env.withBackend vm answer)) client resized

def HostedVm.step (x : HostedVm E) (e : HostedEvent) : HostedVm E :=
  match x.daemon, e with
  | _, .outside qemu => { x with client := { x.client with base := { x.client.base with
      client := { x.client.base.client with qemu } } } }
  | none, _ => x
  | some c, .tick t => HostedVm.tick ticksPerSecond vm c x.client t
  | some c, .sync discovered order extra vcpuCount =>
    let c' := (c.syncInstances discovered order).1
    { daemon := some c'
      client := if (c.instances vm).isNone && (c'.instances vm).isSome then
          .new ⟨fun _ => none, x.qemu, []⟩ extra vcpuCount
        else x.client }
  | some c, .setThreadCount id threads sticky backend fault =>
    let (resized, answer) := HostedVm.resize x.client fault threads
    HostedVm.act vm c (.setThreadCount id threads sticky (if id = vm then answer else backend)) x.client resized
  | some c, .setAllThreadCounts threads sticky backend order fault =>
    let (resized, answer) := HostedVm.resize x.client fault threads
    HostedVm.act vm c (.setAllThreadCounts threads sticky (Function.update backend vm answer) order) x.client resized
  | some _, .query => x

end

end IoThreadController
