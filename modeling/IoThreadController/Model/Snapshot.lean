/-
The daemon's fleet snapshot (`handle_get_snapshot` and `summarize_vq_depths` of `controller.rs`), and a dashboard that
polls it.

Both programs use one type for the reply, so the JSON text between them is left out; `SnapshotEntry.vm` is the part of an
entry that the sampler uses. A call and its reply are two steps: the daemon may do anything while a reply is on its way, and
the dashboard may give the reply up.
-/
import IoThreadController.Core.Run
import IoThreadController.Model.Daemon
import IoThreadController.Model.Dashboard
import IoThreadController.Model.Status

namespace IoThreadController

/-! ## Replies -/

/-- one VM in the reply to `GetSnapshot` -/
structure SnapshotEntry where
  id : VmId
  vcpuCount : ℕ
  threadCount : ℕ
  alive : Bool
  perfAvailable : Bool
  perThreadUtil : ℚ
  manualScalingSticky : Bool
  readIops : ℕ
  writeIops : ℕ
  otherIops : ℕ
  readBwBps : ℕ
  writeBwBps : ℕ
  readLatencyUs : Option SnapshotLatency
  writeLatencyUs : Option SnapshotLatency
  numQueues : Option ℕ
  perVqDepth : Option (List ℕ)
  qdTotal : Option ℕ
  qdAvgX100 : Option ℕ
  qdMedian : Option ℕ
  cpuPctAvg : Option ℕ
  cpuPctMedian : Option ℕ
  cpuPctTotal : Option ℕ
deriving DecidableEq, Repr

section
-- the median of a nonempty list is library code
variable (median : List ℚ → ℚ)

/-- queue count, total, average times 100 and median of the queue depths -/
def summarizeVqDepths (depths : Option (List ℕ)) : Option ℕ × Option ℕ × Option ℕ × Option ℕ :=
  match depths with
  | none | some [] => (none, none, none, none)
  | some depths =>
    let total := depths.foldl satAdd 0
    (some (depths.length % 2 ^ 32), some total, some (total * 100 / depths.length % 2 ^ 64),
      some (asU64 ⌊median (depths.map fun depth => (depth : ℚ))⌋))

def snapshotEntry (id : VmId) (s : InstanceStatus) : SnapshotEntry :=
  let cpuStats := computeCpuStats median s
  let (numQueues, qdTotal, qdAvgX100, qdMedian) := summarizeVqDepths median s.perVqDepth
  { id
    vcpuCount := s.vcpuCount
    threadCount := s.threadCount
    alive := s.alive
    perfAvailable := s.perf.isSome
    -- a rational is always finite
    perThreadUtil := s.perThreadUtil
    manualScalingSticky := s.manualScalingSticky
    readIops := s.readIops
    writeIops := s.writeIops
    otherIops := s.otherIops
    readBwBps := s.readBytesPerSecond
    writeBwBps := s.writeBytesPerSecond
    readLatencyUs := s.readLatencyUs
    writeLatencyUs := s.writeLatencyUs
    numQueues
    perVqDepth := s.perVqDepth
    qdTotal
    qdAvgX100
    qdMedian
    cpuPctAvg := some cpuStats.avgPct
    cpuPctMedian := some cpuStats.medianPct
    cpuPctTotal := some cpuStats.totalPct }

variable {E : ScalingEngine}

/-- `order` is the order in which the map of instances gives its keys -/
def Controller.handleGetSnapshot (c : Controller E) (order : List VmId) : List SnapshotEntry :=
  order.filterMap fun id => (c.instances id).map fun i => snapshotEntry median id i.status

/-- what the sampler uses of an entry -/
def SnapshotEntry.vm (entry : SnapshotEntry) : SnapshotVm where
  id := entry.id
  vcpuCount := entry.vcpuCount
  threadCount := entry.threadCount
  perThreadUtil := entry.perThreadUtil
  readIops := entry.readIops
  writeIops := entry.writeIops
  otherIops := entry.otherIops
  readBwBps := entry.readBwBps
  writeBwBps := entry.writeBwBps
  readLatencyUs := entry.readLatencyUs
  writeLatencyUs := entry.writeLatencyUs
  qdTotal := entry.qdTotal

/-! ## A daemon with a dashboard -/

structure Attached (E : ScalingEngine) where
  /-- none is a daemon that has ended -/
  daemon : Option (Controller E)
  /-- the reply that is on its way -/
  reply : Option SnapshotPayload := none
  tui : Tui := {}

inductive AttachedEvent (E : ScalingEngine) where
  | daemon (event : Event)
  /-- the daemon is started, again if it runs already -/
  | start (cfg : Config) (engine : E.State) (vmOwnership : VmOwnership)
  /-- the daemon serves the sampler's call -/
  | serve (order : List VmId)
  /-- the reply arrives, at that time since the dashboard was started -/
  | receive (elapsed : ℕ)
  /-- the call fails, or its reply is too late -/
  | fail (error : String)
  | paused

def Attached.step (select : List String) (s : Attached E) : AttachedEvent E → Attached E
  | .daemon event => { s with daemon := procStep s.daemon event }
  | .start cfg engine vmOwnership => { s with daemon := some (Controller.new cfg engine vmOwnership) }
  | .serve order =>
    match s.daemon with
    | none => s
    | some c => { s with reply := some ⟨(c.handleGetSnapshot median order).map SnapshotEntry.vm⟩ }
  | .receive elapsed =>
    match s.reply with
    | none => s
    | some payload => { s with reply := none, tui := samplerPass select s.tui (.polled elapsed payload) }
  | .fail error => { s with reply := none, tui := samplerPass select s.tui (.failed error) }
  | .paused => { s with tui := samplerPass select s.tui .paused }

end

end IoThreadController
