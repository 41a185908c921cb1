/-
The dashboard (`bin/iothread-tui.rs`): the roster that its sampler keeps of the daemon's VMs, and the texts that it cuts to
fit the screen.

Seconds and rates are exact rationals (`f64` in the source). A cut inside a character panics: the text functions return
`none` there.
-/
import Mathlib.Data.List.Infix
import IoThreadController.Core.Utf8
import IoThreadController.Model.Instance

namespace IoThreadController

/-! ## Snapshots -/

structure SnapshotVm where
  id : VmId
  vcpuCount : ℕ := 0
  threadCount : ℕ := 0
  perThreadUtil : ℚ := 0
  readIops : ℕ := 0
  writeIops : ℕ := 0
  otherIops : ℕ := 0
  readBwBps : ℕ := 0
  writeBwBps : ℕ := 0
  readLatencyUs : Option SnapshotLatency := none
  writeLatencyUs : Option SnapshotLatency := none
  qdTotal : Option ℕ := none
deriving DecidableEq, Repr

/-- the reply to `GetSnapshot` -/
structure SnapshotPayload where
  vms : List SnapshotVm
deriving DecidableEq, Repr

structure Sample where
  t : ℚ
  iops : ℚ
  bwMb : ℚ
  latR : Option (ℕ × ℕ × ℕ)
  latW : Option (ℕ × ℕ × ℕ)
  latRAvg : Option ℕ
  latWAvg : Option ℕ
  cpuPct : ℚ
  qd : ℚ
  threadCount : ℕ
  /-- `none` is the NaN of a tick without operations -/
  cpuUsPerIop : Option ℚ
deriving DecidableEq, Repr

/-- a change of the thread count, marked on the plot -/
structure Annot where
  t : ℚ
  yValue : ℚ
  oldN : ℕ
  newN : ℕ
deriving DecidableEq, Repr

def snapshotToSample (d : SnapshotVm) (t : ℚ) : Sample :=
  let iops : ℚ := satAdd (satAdd d.readIops d.writeIops) d.otherIops
  let cpuPct := clampUnit d.perThreadUtil * d.threadCount * 100
  { t
    iops
    bwMb := satAdd d.readBwBps d.writeBwBps / 1000000
    latR := d.readLatencyUs.map fun latency => (latency.p50, latency.p95, latency.p99)
    latW := d.writeLatencyUs.map fun latency => (latency.p50, latency.p95, latency.p99)
    latRAvg := d.readLatencyUs.map (·.avg)
    latWAvg := d.writeLatencyUs.map (·.avg)
    cpuPct
    qd := d.qdTotal.getD 0
    threadCount := d.threadCount
    cpuUsPerIop := if 0 < iops then some (cpuPct / 100 * 1000000 / iops) else none }

/-! ## Roster -/

/-- `MAX_HISTORY` -/
def maxHistory : ℕ := 4096

/-- `MISSING_STREAK_DROP` -/
def missingStreakDrop : ℕ := 3

/-- `DAEMON_LOST_STREAK` -/
def daemonLostStreak : ℕ := 3

structure VmState where
  id : VmId
  colorIdx : ℕ
  vcpuCount : Option ℕ := none
  samples : List Sample := []
  annots : List Annot := []
  lastThreadCount : Option ℕ := none
deriving DecidableEq, Repr

def VmState.new (id : VmId) (colorIdx : ℕ) : VmState := { id, colorIdx }

/-- `push_back`, then `pop_front` as long as there is too much -/
def pushBounded {α : Type} (ring : List α) (a : α) : List α := (ring ++ [a]).drop (ring.length + 1 - maxHistory)

/-- what one snapshot adds to the history of a VM -/
def VmState.record (vm : VmState) (t : ℚ) (dom : SnapshotVm) : VmState :=
  let sample := snapshotToSample dom t
  let annot := vm.lastThreadCount.bind fun prev =>
    if prev ≠ dom.threadCount then
      some { t, yValue := max sample.iops sample.bwMb, oldN := prev, newN := dom.threadCount : Annot }
    else none
  { vm with
    vcpuCount := some dom.vcpuCount
    lastThreadCount := some dom.threadCount
    samples := pushBounded vm.samples sample
    annots := annot.elim vm.annots (pushBounded vm.annots) }

/-- what the sampler shares with the screen, and its own `missing_streak` -/
structure Tui where
  vms : List VmState := []
  missingStreak : VmId → Option ℕ := fun _ => none
  daemonFailedStreak : ℕ := 0
  daemonLastError : Option String := none

/-- the `--select` filter: no pattern selects every VM -/
def selected (select : List String) (id : VmId) : Bool :=
  select.isEmpty || select.any fun pat => pat.toList <:+: id.toList

def reconcileWithSnapshot (select : List String) (s : Tui) (payload : SnapshotPayload) : Tui :=
  let wanted := (payload.vms.filter fun d => selected select d.id).map (·.id)
  let existing := s.vms.map (·.id)
  -- a new VM takes the colour of its place before the roster is sorted again
  let vms :=
    if wanted.any fun id => id ∉ existing then
      (payload.vms.foldl (fun roster d =>
        if d.id ∉ wanted then roster
        else if d.id ∈ existing then roster
        else roster ++ [VmState.new d.id roster.length]) s.vms).insertionSort fun a b => a.id ≤ b.id
    else s.vms
  let missingStreak := fun id =>
    if id ∈ existing then
      if id ∈ wanted then none else some (satAdd32 ((s.missingStreak id).getD 0) 1)
    else s.missingStreak id
  let toDrop := fun id => (missingStreak id).any fun c => missingStreakDrop < c
  { s with
    vms := vms.filter fun vm => !toDrop vm.id
    missingStreak := fun id => if toDrop id then none else missingStreak id }

/-! ## Sampler -/

/-- one pass of the sampler loop -/
inductive SamplerPass where
  | paused
  | failed (error : String)
  /-- the reply, and the time since the start -/
  | polled (elapsed : ℕ) (payload : SnapshotPayload)
deriving DecidableEq, Repr

/-- every VM that the payload lists records its entry; of two entries with one id the later one counts -/
def recordSamples (s : Tui) (t : ℚ) (payload : SnapshotPayload) : Tui :=
  { s with vms := s.vms.map fun vm =>
      match payload.vms.reverse.find? fun d => d.id = vm.id with
      | some dom => vm.record t dom
      | none => vm }

/-- `sampler_loop` -/
def samplerPass (select : List String) (s : Tui) : SamplerPass → Tui
  | .paused => s
  | .failed error => { s with daemonFailedStreak := (s.daemonFailedStreak + 1) % 2 ^ 32, daemonLastError := some error }
  | .polled elapsed payload =>
    let healthy :=
      { s with
        daemonFailedStreak := 0
        daemonLastError := if 0 < s.daemonFailedStreak then none else s.daemonLastError }
    recordSamples (reconcileWithSnapshot select healthy payload) (asSecs elapsed) payload

/-! ## Texts on the screen -/

/-- `&s[..n]` -/
def sliceTo (s : String) (n : ℕ) : Option String := (Core.splitAtByte s n).map Prod.fst

/-- `&s[n..]` -/
def sliceFrom (s : String) (n : ℕ) : Option String := (Core.splitAtByte s n).map Prod.snd

/-- `String::truncate` -/
def truncate (s : String) (n : ℕ) : Option String := if n ≤ s.utf8ByteSize then sliceTo s n else some s

def shortenId (id : String) (vcpuCount : Option ℕ) : Option String :=
  let base :=
    if 22 < id.utf8ByteSize then
      match sliceTo id 16, sliceFrom id (id.utf8ByteSize - 4) with
      | some head, some tail => some (head ++ "…" ++ tail)
      | _, _ => none
    else some id
  base.map fun base =>
    match vcpuCount with
    | some n => base ++ " vc=" ++ toString n
    | none => base

structure Rect where
  x : ℕ := 0
  y : ℕ := 0
  width : ℕ
  height : ℕ
deriving DecidableEq, Repr

/-- a titled box with lines of text -/
structure Overlay where
  area : Rect
  title : String
  lines : List String
deriving DecidableEq, Repr

def drawDaemonLostOverlay (full : Rect) (err : String) : Option Overlay :=
  let width := min 74 full.width
  let height := min 8 full.height
  let area : Rect := ⟨full.x + (full.width - width) / 2, full.y + (full.height - height) / 2, width, height⟩
  let max := width - 4
  let trimmed := if max < err.utf8ByteSize then (truncate err (max - 1)).map fun trimmed => trimmed ++ "…" else some err
  trimmed.map fun trimmed =>
    { area
      title := " daemon lost "
      lines :=
        ["", "the io-thread-controller daemon stopped responding to GetSnapshot", "", "last error: " ++ trimmed, "",
          "press q to quit; the TUI keeps retrying in the background"] }

/-- the error that the screen shows, once enough polls in a row have failed -/
def Tui.daemonError (s : Tui) : Option String :=
  if daemonLostStreak ≤ s.daemonFailedStreak then s.daemonLastError else none

end IoThreadController
