/-
Bounded per-VM history (`rolling.rs`): the deltas pushed by a refresh, the baseline for the next one, and the totals that
status lines average.
-/
import IoThreadController.Model.Base

namespace IoThreadController

/-- longest retained status window, in nanoseconds -/
def maxWindow : ℕ := fromSecs (15 * 60)

/-- delta recorded for one successful sampling interval -/
structure TickSample where
  wallTs : Instant
  ioOpsDelta : ℕ
  cpuNsDelta : ℕ
  wallDtNs : ℕ
deriving DecidableEq, Repr

structure RollingMetrics where
  samples : List TickSample := []
  previousWallTs : Option Instant := none
  previousIoOps : Option ℕ := none
  previousCpuTicks : Option ℕ := none
deriving DecidableEq, Repr

namespace RollingMetrics

def setBaseline (m : RollingMetrics) (now : Instant) (ioOps cpuTicks : ℕ) : RollingMetrics :=
  { m with previousWallTs := some now, previousIoOps := some ioOps, previousCpuTicks := some cpuTicks }

def setBackendBaseline (m : RollingMetrics) (now : Instant) (ioOps : ℕ) : RollingMetrics :=
  { m with previousWallTs := some now, previousIoOps := some ioOps, previousCpuTicks := none }

/-- drop samples older than the longest window; every sample stays while `now` is within it of the clock's origin -/
def trim (m : RollingMetrics) (now : Instant) : RollingMetrics :=
  if now < maxWindow then m
  else { m with samples := m.samples.dropWhile fun sample => sample.wallTs < now - maxWindow }

/-- diff cumulative backend and `/proc` counters and append one interval; a reset only replaces the baseline -/
def pushFromProcfsDelta (ticksPerSecond : ℕ) (m : RollingMetrics) (now : Instant) (ioOps cpuTicks : ℕ) :
    RollingMetrics :=
  match m.previousWallTs, m.previousIoOps, m.previousCpuTicks with
  | some previousWallTs, some previousIoOps, some previousCpuTicks =>
    match checkedDurationSince now previousWallTs with
    | none => m.setBaseline now ioOps cpuTicks
    | some elapsed =>
      if ioOps < previousIoOps ∨ cpuTicks < previousCpuTicks then m.setBaseline now ioOps cpuTicks
      else
        let cpuNsDelta := asU64 ⌊((cpuTicks - previousCpuTicks : ℕ) : ℚ) * nanosPerSec / ticksPerSecond⌋
        let sample : TickSample := ⟨now, ioOps - previousIoOps, cpuNsDelta, min elapsed u64Max⟩
        (({ m with samples := m.samples ++ [sample] } : RollingMetrics).setBaseline now ioOps cpuTicks).trim now
  | _, _, _ => m.setBaseline now ioOps cpuTicks

/-- append an interval from backend-computed per-thread utilisation -/
def pushFromBackendUtil (m : RollingMetrics) (now : Instant) (ioOps : ℕ) (perThreadUtil : ℚ) (threadCount : ℕ) :
    RollingMetrics :=
  match m.previousWallTs, m.previousIoOps with
  | some previousWallTs, some previousIoOps =>
    match checkedDurationSince now previousWallTs with
    | none => m.setBackendBaseline now ioOps
    | some elapsed =>
      if ioOps < previousIoOps then m.setBackendBaseline now ioOps
      else
        let wallDtNs := min elapsed u64Max
        let cpuNsDelta := asU64 ⌊(wallDtNs : ℚ) * clampUnit perThreadUtil * threadCount⌋
        let sample : TickSample := ⟨now, ioOps - previousIoOps, cpuNsDelta, wallDtNs⟩
        (({ m with samples := m.samples ++ [sample] } : RollingMetrics).setBackendBaseline now ioOps).trim now
  | _, _ => m.setBackendBaseline now ioOps

/-- operations, CPU time and wall time of the retained intervals inside `window`; every sample counts while the newest
one is within `window` of the clock's origin -/
def totals (m : RollingMetrics) (window : ℕ) : Option (ℕ × ℕ × ℕ) :=
  m.samples.getLast?.map fun newest =>
    (m.samples.filter fun sample => newest.wallTs < window ∨ newest.wallTs - window ≤ sample.wallTs).foldl
      (fun sums sample =>
        (satAdd sums.1 sample.ioOpsDelta, satAdd sums.2.1 sample.cpuNsDelta, satAdd sums.2.2 sample.wallDtNs))
      (0, 0, 0)

/-- average IOPS over retained intervals inside `window` -/
def iopsOver (m : RollingMetrics) (window : ℕ) : Option ℕ :=
  (m.totals window).bind fun (ioOps, _, wallNs) =>
    if 0 < wallNs then some (min (ioOps * nanosPerSec / wallNs) u64Max) else none

/-- CPU microseconds consumed for each completed operation inside `window` -/
def cpuUsPerIoOver (m : RollingMetrics) (window : ℕ) : Option ℕ :=
  (m.totals window).bind fun (ioOps, cpuNs, _) => if 0 < ioOps then some (cpuNs / ioOps / 1000) else none

end RollingMetrics

end IoThreadController
