/-
Status lines (`emit_status_lines` of `controller.rs`, `format_1_5_15` of `rolling.rs`): the events that every tick emits
about the VMs and about the fleet.

The number of VMs and the sum of their thread counts are naturals: a sum of 32-bit counts over the VMs that fit into memory
stays far below what 64 bits hold.
-/
import IoThreadController.Model.Controller
import IoThreadController.Model.PerVmLog

namespace IoThreadController

/-! ## Cells -/

/-- 1, 5 and 15 minutes -/
def statusWindows : List ℕ := [fromSecs 60, fromSecs (5 * 60), fromSecs (15 * 60)]

def formatCell (value : Option ℕ) : String := (value.map toString).getD "-"

/-- `format_optional_cells` -/
def formatOptionalCells (values : List (Option ℕ)) (sep : String) : String :=
  String.intercalate sep (values.map formatCell)

/-- p50, p95, p99 and average, or one dash for each -/
def formatLatencyCell (latency : Option SnapshotLatency) (sep : String) : String :=
  String.intercalate sep (match latency with
    | some latency => [latency.p50, latency.p95, latency.p99, latency.avg].map toString
    | none => ["-", "-", "-", "-"])

/-- `format_1_5_15` -/
def RollingMetrics.format1515 (rolling : RollingMetrics) (getter : RollingMetrics → ℕ → Option ℕ) (sep : String) :
    String :=
  String.intercalate sep ([1, 5, 15].map fun minutes => formatCell (getter rolling (fromSecs (minutes * 60))))

/-- `STATUS_WINDOWS.map(|window| status.rolling.iops_over(window))` -/
def iopsWindows (status : InstanceStatus) : List (Option ℕ) :=
  statusWindows.map fun window => status.rolling.iopsOver window

structure CpuStats where
  avgPct : ℕ
  medianPct : ℕ
  totalPct : ℕ
deriving DecidableEq, Repr

/-- `(x * 100.0).round() as u64` -/
def percent (x : ℚ) : ℕ := asU64 (round (x * 100))

section
-- the median of a nonempty list is library code
variable (median : List ℚ → ℚ)

def computeCpuStats (s : InstanceStatus) : CpuStats :=
  if s.perWorkerUtil ≠ [] then
    { avgPct := percent (s.perWorkerUtil.sum / s.perWorkerUtil.length)
      medianPct := percent (median s.perWorkerUtil)
      totalPct := percent s.perWorkerUtil.sum }
  else
    { avgPct := percent s.perThreadUtil
      medianPct := percent s.perThreadUtil
      totalPct := percent (s.perThreadUtil * s.threadCount) }

/-! ## Events about one VM -/

def formatInstanceStatusLine (status : InstanceStatus) (iopsWindows : List (Option ℕ)) : String :=
  let cpu := computeCpuStats median status
  "status=" ++ String.intercalate " "
    [toString status.threadCount, toString status.readIops, toString status.writeIops, toString status.otherIops,
      formatOptionalCells iopsWindows " ", toString (status.readBytesPerSecond / 1000000),
      toString (status.writeBytesPerSecond / 1000000), toString cpu.avgPct, toString cpu.medianPct, toString cpu.totalPct,
      formatLatencyCell status.readLatencyUs " ", formatLatencyCell status.writeLatencyUs " ",
      status.rolling.format1515 RollingMetrics.cpuUsPerIoOver " "]

def emitInstanceStatusFile (i : Instance) (iopsWindows : List (Option ℕ)) : LogEvent where
  target := perVmTarget
  fields := [("message", formatInstanceStatusLine median i.status iopsWindows), ("vm", i.id)]

def emitInstanceStatusMain (i : Instance) (iopsWindows : List (Option ℕ)) : LogEvent where
  target := "controller"
  fields := [("event", "vm_status"), ("vm", i.display), ("thread_count", toString i.status.threadCount),
    ("read_iops", toString i.status.readIops), ("write_iops", toString i.status.writeIops),
    ("other_iops", toString i.status.otherIops), ("iops_1_5_15m", formatOptionalCells iopsWindows "/"),
    ("read_bw_mb_s", toString (i.status.readBytesPerSecond / 1000000)),
    ("write_bw_mb_s", toString (i.status.writeBytesPerSecond / 1000000)),
    ("read_latency_us", formatLatencyCell i.status.readLatencyUs "/"),
    ("write_latency_us", formatLatencyCell i.status.writeLatencyUs "/")]

/-! ## One tick's events -/

/-- what the loop over the fleet adds up; a window is its sum and whether any VM had a rate -/
structure Totals where
  threads : ℕ := 0
  windows : List (ℕ × Bool) := [(0, false), (0, false), (0, false)]

def addRate (window : ℕ × Bool) (value : Option ℕ) : ℕ × Bool :=
  match value with
  | some value => (satAdd window.1 value, true)
  | none => window

/-- one turn of the loop, with the events so far -/
def emitInstanceStatus (cfg : Config) (acc : Totals × List LogEvent) (i : Instance) : Totals × List LogEvent :=
  let iops := iopsWindows i.status
  let routed :=
    if cfg.enablePerVmStatusLine && cfg.enablePerVmMainLog then [emitInstanceStatusMain i iops]
    else if cfg.enablePerVmStatusLine then [emitInstanceStatusFile median i iops]
    else []
  let main := if cfg.enablePerVmMainLog then [emitInstanceStatusMain i iops] else []
  ({ threads := acc.1.threads + i.status.threadCount, windows := List.zipWith addRate acc.1.windows iops },
    acc.2 ++ routed ++ main)

/-- the aggregate line -/
def aggregateStatus (count : ℕ) (threads : ℕ) (cells : List (Option ℕ)) : LogEvent where
  target := "status"
  fields := [("message", String.intercalate " " [toString count, toString threads, formatOptionalCells cells " "])]

/-- `emit_status_lines`; `order` is the iteration order of the inventory -/
def emitStatusLines {E : ScalingEngine} (c : Controller E) (order : List VmId) : List LogEvent :=
  let fleet := (order.filterMap c.instances).insertionSort fun left right => left.id ≤ right.id
  let (totals, events) := fleet.foldl (emitInstanceStatus median c.cfg) ({}, [])
  if c.cfg.enableAggregateStatusLine then
    events ++ [aggregateStatus order.length totals.threads
      (totals.windows.map fun (sum, has) => if has then some sum else none)]
  else events

end

end IoThreadController
