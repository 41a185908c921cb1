/-
Snapshots of the QEMU backend, and one VM's client over its lifetime (`get_thread_pool_snapshot` of
`backends/qemu/client.rs`, `CpuSample::new` of `helpers.rs`, and the two queries of `libvirt.rs`).

`QemuInstanceClient` holds what a resize uses; `QemuVmClient` adds what snapshots keep. All that a snapshot reads, the
monitor's replies, `/proc` and the clock, is one `SnapshotEnv`, so a snapshot is a function of the client and its
environment. The client's operations and what others do to QEMU are the events of one machine.
-/
import IoThreadController.Model.Client
import IoThreadController.Model.Qmp
import IoThreadController.Model.Topology

namespace IoThreadController

open Std (ExtTreeMap)
open IoThreadController.Core (Json)

/-! ## Queries -/

def readU64 : JsonValue → Option ℕ
  | .scalar (.number value) =>
    if value.den = 1 ∧ 0 ≤ value.num ∧ value.num.toNat ≤ u64Max then some value.num.toNat else none
  | _ => none

/-- a `u64` field with `#[serde(default)]` -/
def readCounter (members : Members) (key : String) : Option ℕ :=
  (readField members key).bind fun value => value.elim (some 0) readU64

/-- `Stats` of `parse_blockstats`: the counters of one block device -/
structure BlockStats where
  rdBytes : ℕ := 0
  wrBytes : ℕ := 0
  rdOperations : ℕ := 0
  wrOperations : ℕ := 0
  flushOperations : ℕ := 0
  unmapOperations : ℕ := 0
deriving DecidableEq, Repr

def BlockStats.read : JsonValue → Option BlockStats
  | .object members => do
    let rdBytes ← readCounter members "rd_bytes"
    let wrBytes ← readCounter members "wr_bytes"
    let rdOperations ← readCounter members "rd_operations"
    let wrOperations ← readCounter members "wr_operations"
    let flushOperations ← readCounter members "flush_operations"
    let unmapOperations ← readCounter members "unmap_operations"
    return { rdBytes, wrBytes, rdOperations, wrOperations, flushOperations, unmapOperations }
  | .array items =>
    -- an array gives the fields in order, and those that it leaves out their default
    if 6 < items.length then none
    else (items.mapM readU64).map fun counters =>
      ⟨counters.getD 0 0, counters.getD 1 0, counters.getD 2 0, counters.getD 3 0, counters.getD 4 0, counters.getD 5 0⟩
  | _ => none

/-- `Entry`: the one field is required -/
def BlockStats.readEntry : JsonValue → Option BlockStats
  | .object members => (readField members "stats").join.bind BlockStats.read
  | .array [stats] => BlockStats.read stats
  | _ => none

/-- one turn of the loop over the block devices -/
def InstancePerfSample.addDevice (perf : InstancePerfSample) (stats : BlockStats) : InstancePerfSample :=
  { perf with
    readIoCount := satAdd perf.readIoCount stats.rdOperations
    writeIoCount := satAdd perf.writeIoCount stats.wrOperations
    otherIoCount := satAdd perf.otherIoCount (satAdd stats.flushOperations stats.unmapOperations)
    readBytesTotal := satAdd perf.readBytesTotal stats.rdBytes
    writeBytesTotal := satAdd perf.writeBytesTotal stats.wrBytes }

def sumBlockstats (entries : List BlockStats) : Option InstancePerfSample :=
  if entries = [] then none else some (entries.foldl InstancePerfSample.addDevice {})

def readEntries : JsonValue → Option (List BlockStats)
  | .array items => items.mapM BlockStats.readEntry
  | _ => none

/-- `parse_blockstats`; `message` is the JSON library's complaint about a document that is not a list of entries -/
def parseBlockstats (message : JsonValue → String) (body : JsonValue) : Except QemuError (Option InstancePerfSample) :=
  match readEntries body with
  | some entries => .ok (sumBlockstats entries)
  | none => .error (.parse ("decode query-blockstats: " ++ message body))

namespace QmpMonitor

/-- the document `{"human-readable-text": text}` -/
def readHumanReadable : JsonValue → Option String
  | .object members => (readField members "human-readable-text").join.bind readString
  | .array [text] => readString text
  | _ => none

def queryPrometheusMetrics (monitor : QmpMonitor) (message : JsonValue → String) : Except QemuError String :=
  match monitor.execute "x-query-prometheus-metrics" none with
  | .error error => .error error
  | .ok body =>
    match readHumanReadable body with
    | some text => .ok text
    | none => .error (.parse ("decode x-query-prometheus-metrics: " ++ message body))

def queryBlockstats (monitor : QmpMonitor) (message : JsonValue → String) :
    Except QemuError (Option InstancePerfSample) :=
  match monitor.execute "query-blockstats" none with
  | .error error => .error error
  | .ok body => parseBlockstats message body

end QmpMonitor

/-! ## Threads in `/proc` -/

/-- what `/proc` shows of processes and their tasks -/
structure ProcTasks where
  /-- whether `Process::new` opens a process or task -/
  opens : ℤ → Bool
  /-- `status().tgid`, or the text of its error -/
  tgid : ℤ → Except String ℤ
  /-- user and system jiffies of a task of a process -/
  stat : ℤ → ℤ → Option (ℕ × ℕ)

/-- the text of `BackendClientError::Procfs` -/
def procError : BackendClientError := "proc error"

/-- one turn of the loop of `CpuSample::new` -/
def ProcTasks.readTask (proc : ProcTasks) (pid : ℤ) (jiffies : ExtTreeMap ℤ ℕ) (tid : ℤ) :
    Except BackendClientError (ExtTreeMap ℤ ℕ) :=
  match proc.stat pid tid with
  | some (utime, stime) => .ok (jiffies.insert tid (utime + stime))
  | none => .error procError

/-- the sample that a map of counters makes; a sum over it does not depend on its order -/
def QemuCpuSample.ofMap (jiffies : ExtTreeMap ℤ ℕ) (wall : Instant) : QemuCpuSample where
  jiffies := jiffies.toList
  distinct := by
    rw [ExtTreeMap.map_fst_toList_eq_keys]
    exact ExtTreeMap.nodup_keys
  wall := wall

/-- `CpuSample::new` -/
def QemuCpuSample.new (proc : ProcTasks) (now : Instant) (pid : ℤ) (iothreadTids : ExtTreeMap String ℤ) :
    Except BackendClientError QemuCpuSample :=
  if proc.opens pid = false then .error procError
  else
    match iothreadTids.values.foldlM (proc.readTask pid) ∅ with
    | .ok jiffies => .ok (.ofMap jiffies now)
    | .error error => .error error

/-- the part of a snapshot from the first task id to the counters: the process id and the sample -/
def ProcTasks.sample (proc : ProcTasks) (now : Instant) (topo : QemuTopology) :
    Except BackendClientError (ℤ × QemuCpuSample) :=
  let firstTid := topo.iothreadTids.values.headD 0
  if firstTid = 0 then .error "qemu topology reported no iothread TIDs"
  else if proc.opens firstTid = false then .error procError
  else
    match proc.tgid firstTid with
    | .error error => .error ("pid resolution: " ++ error)
    | .ok pid =>
      if pid ≤ 0 then .error ("invalid pid " ++ toString pid ++ " from tid " ++ toString firstTid)
      else
        match QemuCpuSample.new proc now pid topo.iothreadTids with
        | .error error => .error error
        | .ok sample => if sample.jiffies = [] then .error "qemu per-thread sample empty" else .ok (pid, sample)

/-! ## Snapshots -/

/-- what one snapshot reads -/
structure SnapshotEnv where
  monitor : QmpMonitor
  message : JsonValue → String
  proc : ProcTasks
  now : Instant

namespace SnapshotEnv

def metrics (env : SnapshotEnv) : Except QemuError String := env.monitor.queryPrometheusMetrics env.message

/-- best effort: a failed query is a snapshot without counters -/
def perf (env : SnapshotEnv) : Option InstancePerfSample :=
  match env.monitor.queryBlockstats env.message with
  | .ok perf => perf
  | .error _ => none

end SnapshotEnv

/-- the reply of a QEMU without `x-query-prometheus-metrics` -/
def QemuError.Unsupported : QemuError → Prop
  | .qmpError cmd errorClass _ => cmd = "x-query-prometheus-metrics" ∧ errorClass = "CommandNotFound"
  | _ => False

instance : DecidablePred QemuError.Unsupported
  | .qmpError cmd errorClass _ =>
    inferInstanceAs (Decidable (cmd = "x-query-prometheus-metrics" ∧ errorClass = "CommandNotFound"))
  | .broken | .io _ | .parse _ => inferInstanceAs (Decidable False)

/-- `QemuInstanceClient` with the rest of its `Inner` -/
structure QemuVmClient where
  base : QemuInstanceClient
  vcpuCount : ℕ
  pid : ℤ := 0
  iothreadTids : ExtTreeMap String ℤ := ∅
  lastSample : Option QemuCpuSample := none
  warnedUnsupportedMetrics : Bool := false
  /-- how often the warning about unsupported metrics was logged -/
  warnings : ℕ := 0

namespace QemuVmClient

/-- `QemuInstanceClient::new` -/
def new (client : LibvirtQmp) (extra vcpuCount : ℕ) : QemuVmClient := { base := ⟨client, {}, extra⟩, vcpuCount }

def snapshotFromCachedTopology (env : SnapshotEnv) (s : QemuVmClient) : ThreadPoolSnapshot where
  threadCount := max s.base.threadCount 1
  perf := env.perf
  perThreadUtil := none
  vcpuCount := s.vcpuCount

/-- the depths ride on the counters -/
def withDepths (topo : QemuTopology) (perf : Option InstancePerfSample) : Option InstancePerfSample :=
  if topo.vqInflight = [] then perf else perf.map fun perf => { perf with perVqDepth := some topo.vqInflight }

/-- the end of a snapshot: topology and sample go into the cache -/
def refresh (ticksPerSecond : ℕ) (env : SnapshotEnv) (topo : QemuTopology) (pid : ℤ) (sample : QemuCpuSample)
    (s : QemuVmClient) : QemuVmClient × ThreadPoolSnapshot :=
  ({ s with
      base := { s.base with inner := ⟨topo.iothreads, topo.devicePath, topo.vqCount⟩ }
      pid
      iothreadTids := topo.iothreadTids
      lastSample := some sample },
    { threadCount := topo.iothreads.length % 2 ^ 32
      perf := withDepths topo env.perf
      perThreadUtil := s.lastSample.map fun prev => QemuCpuSample.diffJiffiesSample ticksPerSecond prev sample
      vcpuCount := s.vcpuCount })

def getThreadPoolSnapshot (ticksPerSecond : ℕ) (env : SnapshotEnv) (s : QemuVmClient) :
    QemuVmClient × Except BackendClientError ThreadPoolSnapshot :=
  match env.metrics with
  | .error error =>
    if error.Unsupported then
      ({ s with
          warnedUnsupportedMetrics := true
          warnings := if s.warnedUnsupportedMetrics then s.warnings else s.warnings + 1 },
        .ok (s.snapshotFromCachedTopology env))
    else (s, .error error.toBackendClientError)
  | .ok body =>
    let topo := QemuTopology.new body
    if topo.iothreads = [] ∨ topo.devicePath = "" then
      (s, .error ("qemu topology incomplete: iothreads=" ++ toString topo.iothreads.length ++ " device=" ++
        topo.devicePath))
    else
      match env.proc.sample env.now topo with
      | .error error => (s, .error error)
      | .ok (pid, sample) =>
        let (s', snapshot) := s.refresh ticksPerSecond env topo pid sample
        (s', .ok snapshot)

/-! ## The client's lifetime -/

/-- an operation of the trait that works on the inner record -/
def pass {α : Type} (s : QemuVmClient) (p : QemuInstanceClient × α) : QemuVmClient × α := ({ s with base := p.1 }, p.2)

/-- the turns that the loops of a resize may take: more than any resize to a `u32` count does -/
def resizeFuel : ℕ := 2 ^ 33

def setThreadCount (target : ℕ) (s : QemuVmClient) : QemuVmClient × Except BackendClientError Unit :=
  s.pass ((s.base.setThreadCount resizeFuel target).getD (s.base, .ok ()))

/-- the client as the controller sees it, while its environment is `env` -/
def instanceClient (ticksPerSecond : ℕ) (env : SnapshotEnv) : InstanceClient QemuVmClient :=
  -- the view of the inner record forwards commands; its resize and its snapshot are not used here
  let forward := QemuInstanceClient.instanceClient (fun _ base => (base, .ok ())) fun base => (base, .error "")
  { setThreadCount := setThreadCount
    getThreadPoolSnapshot := getThreadPoolSnapshot ticksPerSecond env
    close := fun s => s
    addIoThread := fun id properties s => s.pass (forward.addIoThread id properties s.base)
    delIoThread := fun id s => s.pass (forward.delIoThread id s.base)
    setIoThreadVqMapping := fun device mapping s => s.pass (forward.setIoThreadVqMapping device mapping s.base)
    getIoThreadVqMapping := fun device s => s.pass (forward.getIoThreadVqMapping device s.base) }

end QemuVmClient

/-- what happens to one VM: an operation of its client with the failures that strike its commands, or a change of QEMU
that somebody else makes -/
inductive VmEvent where
  | call (env : SnapshotEnv) (fault : ℕ → Option QemuError) (operation : ClientCall)
  | outside (qemu : Qemu)

namespace QemuVmClient

/-- the client before a call: the log is that of one call -/
def begin (fault : ℕ → Option QemuError) (s : QemuVmClient) : QemuVmClient :=
  { s with base := { s.base with client := ⟨fault, s.base.client.qemu, []⟩ } }

/-- one call with its reply -/
def call (ticksPerSecond : ℕ) (env : SnapshotEnv) (fault : ℕ → Option QemuError) (operation : ClientCall)
    (s : QemuVmClient) : QemuVmClient × ClientReply :=
  (instanceClient ticksPerSecond env).call operation (s.begin fault)

def step (ticksPerSecond : ℕ) (s : QemuVmClient) : VmEvent → QemuVmClient
  | .call env fault operation => (s.call ticksPerSecond env fault operation).1
  | .outside qemu => { s with base := { s.base with client := { s.base.client with qemu } } }

end QemuVmClient

end IoThreadController
