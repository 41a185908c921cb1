/-
The keyboard of the dashboard (`bin/iothread-tui.rs`): what keys do to the screen, to the sampler and to the daemon, while
the sampler works.

A pass of the sampler is three steps: it wakes and looks at the pause flag, the reply changes the roster, and the VMs record
their samples (`samplerPass_polled`). Keys come between any two of them. A call of `SetThreadCount` leaves the dashboard
at once; what becomes of it is not waited for.

Seconds are exact rationals (`f64` in the source), except where a typed number is read.
-/
import Mathlib.Data.Finset.Insert
import IoThreadController.Model.Dashboard
import IoThreadController.Model.Text

namespace IoThreadController

/-! ## Screen -/

inductive PlotKind where
  | perf
  | latency
  | cpu
  | queueDepth
  | cpuPerIop
deriving DecidableEq, Repr

inductive PerfMetric where
  | iops
  | bandwidth
deriving DecidableEq, Repr

def PerfMetric.toggle : PerfMetric → PerfMetric
  | .iops => .bandwidth
  | .bandwidth => .iops

inductive Focus where
  | vm (id : VmId)
  | total
deriving DecidableEq, Repr

inductive InputPromptKind where
  | refreshSecs
  | yMax (plot : PlotKind)
  | setThreads (vmId : VmId) (current : ℕ) (sticky : Bool)
deriving DecidableEq, Repr

/-- a modal prompt; its text is ASCII, so that bytes and characters agree -/
structure InputPrompt where
  kind : InputPromptKind
  buffer : List Char
deriving DecidableEq, Repr

inductive DashColumn where
  | id
  | threads
  | iops
  | bandwidth
  | cpu
  | usPerIop
  | latRead
  | latWrite
  | queueDepth
  | numQueues
deriving DecidableEq, Repr

/-- `DashColumn::ALL` -/
def DashColumn.all : List DashColumn :=
  [.id, .threads, .iops, .bandwidth, .cpu, .usPerIop, .latRead, .latWrite, .queueDepth, .numQueues]

def DashColumn.required (c : DashColumn) : Bool := c = .id

/-- the number of `THEMES` -/
def themeCount : ℕ := 2

structure UiState where
  activePlots : List PlotKind := [.perf]
  perfMetric : PerfMetric
  focused : Option Focus := none
  paused : Bool := false
  pausedTFrozen : Option ℚ := none
  stickyMode : Bool := false
  showHelp : Bool := false
  showAggregate : Bool := false
  inputPrompt : Option InputPrompt := none
  themeIdx : ℕ := 1
  columns : Finset DashColumn := {.id, .threads, .iops, .bandwidth, .cpu, .usPerIop, .queueDepth, .numQueues}
  /-- the cursor of the column picker -/
  columnPicker : Option ℕ := none
  logYScale : Bool := false
  yMaxOverride : PlotKind → Option ℚ := fun _ => none
  wallClockX : Bool := false

namespace UiState

def new (perfMetric : PerfMetric) : UiState := { perfMetric }

/-- with a single VM the aggregate is that VM's line -/
def plotsAggregate (ui : UiState) (vmCount : ℕ) : Bool := ui.showAggregate && decide (2 ≤ vmCount)

def toggleAggregate (ui : UiState) : UiState :=
  let shown := !ui.showAggregate
  { ui with
    showAggregate := shown
    focused := if !shown ∧ ui.focused = some .total then none else ui.focused }

def togglePlot (ui : UiState) (k : PlotKind) : UiState :=
  if k ∈ ui.activePlots then
    if 1 < ui.activePlots.length then { ui with activePlots := ui.activePlots.erase k } else ui
  else { ui with activePlots := ui.activePlots ++ [k] }

def cycleTheme (ui : UiState) : UiState := { ui with themeIdx := (ui.themeIdx + 1) % themeCount }

end UiState

/-- a call of the daemon's `SetThreadCount`; the count before is only for the log -/
structure ThreadCountCall where
  id : VmId
  cur : ℕ
  next : ℕ
  sticky : Bool
deriving DecidableEq, Repr

/-- where the sampler is in its loop -/
inductive SamplerPhase where
  | sleeping
  /-- the call is out; the pass began at that time since the start -/
  | polling (elapsed : ℕ)
  /-- the roster follows the reply, the samples are still to come -/
  | recording (elapsed : ℕ) (payload : SnapshotPayload)
deriving DecidableEq, Repr

structure Screen where
  tui : Tui := {}
  aggregate : List Sample := []
  /-- `Shared::paused`, the flag that the sampler sees -/
  paused : Bool := false
  refreshNs : ℕ
  sampler : SamplerPhase := .sleeping
  ui : UiState
  /-- the calls that have been sent, in order -/
  sent : List ThreadCountCall := []
  /-- the loop of the screen has ended -/
  quit : Bool := false

/-! ## Keys -/

inductive KeyCode where
  | esc
  | enter
  | backspace
  | tab
  | up
  | down
  | char (c : Char)
  | other
deriving DecidableEq, Repr

/-- what the table of `handle_key` does for a key -/
inductive Hotkey where
  | quit
  | undo
  | help
  | metric
  | pause
  | refresh
  | columns
  | theme
  | aggregate
  | sticky
  | plot (k : PlotKind)
  | move (delta : ℤ)
  | nudge (delta : ℤ)
  | logScale
  | resetAutoscale
  | yMax
  | wallClock
  | setThreads
deriving DecidableEq, Repr

/-- Ctrl-C arrives as Esc -/
def hotkey : KeyCode → Option Hotkey
  | .char 'q' => some .quit
  | .esc => some .undo
  | .char 'h' | .char '?' => some .help
  | .char 'm' => some .metric
  | .char 'p' | .char ' ' => some .pause
  | .char 'r' => some .refresh
  | .char 'c' => some .columns
  | .char 't' => some .theme
  | .char 'a' => some .aggregate
  | .char 's' => some .sticky
  | .char '1' => some (.plot .perf)
  | .char '2' => some (.plot .latency)
  | .char '3' => some (.plot .cpu)
  | .char '4' => some (.plot .queueDepth)
  | .char '5' => some (.plot .cpuPerIop)
  | .down | .char 'j' => some (.move 1)
  | .up | .char 'k' => some (.move (-1))
  | .char '+' | .char '=' => some (.nudge 1)
  | .char '-' | .char '_' => some (.nudge (-1))
  | .char 'l' => some .logScale
  | .char 'z' => some .resetAutoscale
  | .char 'y' => some .yMax
  | .char 'x' => some .wallClock
  | .char 'n' => some .setThreads
  | _ => none

/-! ## Threads -/

/-- `status.thread_count`: a sample sets it together with `last_thread_count`, and it is 0 before the first -/
def VmState.shownThreadCount (vm : VmState) : ℕ := vm.lastThreadCount.getD 0

/-- `n as i32` -/
def asI32 (n : ℕ) : ℤ := if n % 2 ^ 32 < 2 ^ 31 then n % 2 ^ 32 else n % 2 ^ 32 - 2 ^ 32

/-- `str::parse::<u32>` -/
def parseU32 (s : List Char) : Option ℕ :=
  let digits := match s with
    | '+' :: s => s
    | s => s
  (parseDigits digits).filter (· < 2 ^ 32)

namespace Screen

def withUi (s : Screen) (ui : UiState) : Screen := { s with ui }

def findVm (s : Screen) (id : VmId) : Option VmState := s.tui.vms.find? fun vm => vm.id = id

def requestSetThreadCount (s : Screen) (id : VmId) (cur next : ℕ) (sticky : Bool) : Screen :=
  { s with sent := s.sent ++ [⟨id, cur, next, sticky⟩] }

/-- the VM that is focused, if it is still there -/
def focusedVm (s : Screen) : Option VmState :=
  match s.ui.focused with
  | some (.vm id) => s.findVm id
  | some .total | none => none

def nudgeThreadCount (s : Screen) (delta : ℤ) (sticky : Bool) : Screen :=
  match s.focusedVm with
  | none => s
  | some vm =>
    let cur := vm.shownThreadCount
    -- without overflow checks `i32` wraps
    let next := asI32 ((asI32 cur + delta) % 2 ^ 32).toNat
    if next < 1 then s else s.requestSetThreadCount vm.id cur next.toNat sticky

def openSetThreadsPrompt (s : Screen) : Screen :=
  match s.focusedVm with
  | none => s
  | some vm =>
    s.withUi { s.ui with
      inputPrompt := some
        { kind := .setThreads vm.id vm.shownThreadCount s.ui.stickyMode
          buffer := Nat.toDigits 10 vm.shownThreadCount } }

/-! ## Cadence and scale -/

/-- never below 50 ms -/
def refreshPeriod (s : Screen) : ℕ := max s.refreshNs 50000000

/-- the decimal seconds of a cadence; less than a microsecond over a whole second is left out. The decimals are exact: the
text of the source's `f64` can differ at exactly a microsecond over a whole second, and for a cadence that is so long that
an `f64` does not have its nanoseconds -/
def fmtPromptSecs (ns : ℕ) : List Char :=
  if ns = 0 then []
  else if ns % nanosPerSec < 1000 then Nat.toDigits 10 (ns / nanosPerSec)
  else
    let fraction := Nat.toDigits 10 (nanosPerSec + ns % nanosPerSec)
    Nat.toDigits 10 (ns / nanosPerSec) ++ '.' :: (fraction.tail.rdropWhile (· = '0'))

def openRefreshPrompt (s : Screen) : Screen :=
  s.withUi { s.ui with inputPrompt := some ⟨.refreshSecs, fmtPromptSecs s.refreshPeriod⟩ }

def openYmaxPrompt (s : Screen) : Screen :=
  match s.ui.activePlots.head? with
  | none => s
  | some plot =>
    let buffer := (s.ui.yMaxOverride plot).elim [] fun v => Nat.toDigits 10 (roundHalfEven v).toNat
    s.withUi { s.ui with inputPrompt := some ⟨.yMax plot, buffer⟩ }

def resetAutoscale (s : Screen) : Screen :=
  { s with
    tui := { s.tui with vms := s.tui.vms.map fun vm => { vm with samples := [], annots := [] } }
    aggregate := [] }

/-- `now` is the time since the start -/
def togglePause (s : Screen) (now : ℕ) : Screen :=
  let paused := !s.ui.paused
  { s with
    ui := { s.ui with paused, pausedTFrozen := if paused then some (asSecs now) else none }
    paused }

/-! ## Focus -/

/-- an index that is out of range panics in the source; there is none (`moveFocus_isSome`) -/
def moveFocus (s : Screen) (delta : ℤ) : Screen :=
  let ids := s.tui.vms.map (·.id)
  let n := ids.length
  if n = 0 then s.withUi { s.ui with focused := none }
  else
    let totalSlot := s.ui.plotsAggregate n
    let slots : ℕ := if totalSlot then n + 1 else n
    let cur : ℕ := match s.ui.focused with
      | some (.vm id) => (ids.idxOf? id).getD 0
      | some .total => n
      | none => 0
    -- `rem_euclid`
    let next := ((cur + delta) % slots).toNat
    s.withUi { s.ui with
      focused := if totalSlot ∧ next = n then some .total else ids[next]?.map Focus.vm }

end Screen

/-! ## Prompts -/

def InputPromptKind.takesPoint : InputPromptKind → Bool
  | .refreshSecs | .yMax _ => true
  | .setThreads .. => false

/-- the keys that edit a prompt; Esc and Enter are elsewhere -/
def InputPrompt.edit (p : InputPrompt) : KeyCode → InputPrompt
  | .backspace => { p with buffer := p.buffer.dropLast }
  | .tab | .char ' ' =>
    match p.kind with
    | .setThreads vmId current sticky => { p with kind := .setThreads vmId current !sticky }
    | .refreshSecs | .yMax _ => p
  | .char c =>
    let isDotOk := p.kind.takesPoint && decide (c = '.') && decide ('.' ∉ p.buffer)
    if (c.isDigit || isDotOk) ∧ p.buffer.length < 12 then { p with buffer := p.buffer ++ [c] } else p
  | .esc | .enter | .up | .down | .other => p

namespace Screen

/-- a number that cannot be used leaves the prompt open; what a prompt can hold is finite -/
def commitInputPrompt (s : Screen) : Screen :=
  match s.ui.inputPrompt with
  | none => s
  | some ⟨.refreshSecs, buffer⟩ =>
    match parseF64 (trim buffer) with
    | none => s
    | some v =>
      if v < nearestF64 (50 / 1000) then s
      else { s with refreshNs := asU64 ⌊nearestF64 (v * 1000000000)⌋, ui := { s.ui with inputPrompt := none } }
  | some ⟨.yMax plot, buffer⟩ =>
    let trimmed := trim buffer
    if trimmed = [] ∨ trimmed = ['0'] then
      s.withUi { s.ui with inputPrompt := none, yMaxOverride := Function.update s.ui.yMaxOverride plot none }
    else
      match parseF64 trimmed with
      | none => s
      | some v =>
        if v ≤ 0 then s
        else s.withUi { s.ui with inputPrompt := none, yMaxOverride := Function.update s.ui.yMaxOverride plot (some v) }
  | some ⟨.setThreads vmId current sticky, buffer⟩ =>
    match parseU32 (trim buffer) with
    | none | some 0 => s
    | some v => (s.requestSetThreadCount vmId current v sticky).withUi { s.ui with inputPrompt := none }

def handleInputPromptKey (s : Screen) (k : KeyCode) : Screen :=
  match k with
  | .esc => s.withUi { s.ui with inputPrompt := none }
  | .enter => s.commitInputPrompt
  | k => s.withUi { s.ui with inputPrompt := s.ui.inputPrompt.map fun p => p.edit k }

/-! ## Columns -/

def toggleColumn (s : Screen) (col : DashColumn) : Screen :=
  if col.required then s
  else if col ∈ s.ui.columns then s.withUi { s.ui with columns := s.ui.columns.erase col }
  else s.withUi { s.ui with columns := insert col s.ui.columns }

def handleColumnPickerKey (s : Screen) (cursor : ℕ) (k : KeyCode) : Screen :=
  let total := DashColumn.all.length
  match k with
  | .esc | .char 'q' | .char 'c' => s.withUi { s.ui with columnPicker := none }
  | .down | .char 'j' => s.withUi { s.ui with columnPicker := some ((cursor + 1) % total) }
  | .up | .char 'k' => s.withUi { s.ui with columnPicker := some ((cursor + total - 1) % total) }
  | .char ' ' | .enter => (DashColumn.all[cursor]?).elim s s.toggleColumn
  | _ => s

/-! ## The loop of the screen -/

def perform (s : Screen) (now : ℕ) : Hotkey → Screen
  | .quit => { s with quit := true }
  | .undo =>
    -- one mode at a time, the end last; help is never on here
    if s.ui.focused.isSome then s.withUi { s.ui with focused := none }
    else if s.ui.stickyMode then s.withUi { s.ui with stickyMode := false }
    else { s with quit := true }
  | .help => s.withUi { s.ui with showHelp := true }
  | .metric => s.withUi { s.ui with perfMetric := s.ui.perfMetric.toggle }
  | .pause => s.togglePause now
  | .refresh => s.openRefreshPrompt
  | .columns => s.withUi { s.ui with columnPicker := some 0 }
  | .theme => s.withUi s.ui.cycleTheme
  | .aggregate => s.withUi s.ui.toggleAggregate
  | .sticky => s.withUi { s.ui with stickyMode := !s.ui.stickyMode }
  | .plot k => s.withUi (s.ui.togglePlot k)
  | .move delta => s.moveFocus delta
  | .nudge delta => s.nudgeThreadCount delta s.ui.stickyMode
  | .logScale => s.withUi { s.ui with logYScale := !s.ui.logYScale }
  | .resetAutoscale => s.resetAutoscale
  | .yMax => s.openYmaxPrompt
  | .wallClock => s.withUi { s.ui with wallClockX := !s.ui.wallClockX }
  | .setThreads => s.openSetThreadsPrompt

def handleKey (s : Screen) (k : KeyCode) (now : ℕ) : Screen :=
  if s.ui.showHelp then s.withUi { s.ui with showHelp := false }
  else if s.ui.inputPrompt.isSome then s.handleInputPromptKey k
  else
    match s.ui.columnPicker with
    | some cursor => s.handleColumnPickerKey cursor k
    | none => (hotkey k).elim s (s.perform now)

end Screen

/-! ## The sampler -/

/-- the line of all VMs, drawn from two of them on -/
def aggregateSample (t : ℚ) (samples : List Sample) : Option Sample :=
  if 2 ≤ samples.length then
    let iops := (samples.map Sample.iops).sum
    let cpuPct := (samples.map Sample.cpuPct).sum
    some
      { t
        iops
        bwMb := (samples.map Sample.bwMb).sum
        latR := none
        latW := none
        latRAvg := none
        latWAvg := none
        cpuPct
        qd := (samples.map Sample.qd).sum
        threadCount := (samples.map Sample.threadCount).foldl satAdd32 0
        cpuUsPerIop := if 0 < iops then some (cpuPct / 100 * 1000000 / iops) else none }
  else none

/-- the samples that a reply adds to the VMs of the roster -/
def rosterSamples (s : Tui) (t : ℚ) (payload : SnapshotPayload) : List Sample :=
  s.vms.filterMap fun vm =>
    (payload.vms.reverse.find? fun d => d.id = vm.id).map fun dom => snapshotToSample dom t

/-- what a reply does to the failure streak -/
def Tui.healthy (s : Tui) : Tui :=
  { s with
    daemonFailedStreak := 0
    daemonLastError := if 0 < s.daemonFailedStreak then none else s.daemonLastError }

/-- the reply in two steps, as keys see it -/
theorem samplerPass_polled (select : List String) (s : Tui) (elapsed : ℕ) (payload : SnapshotPayload) :
    samplerPass select s (.polled elapsed payload) =
      recordSamples (reconcileWithSnapshot select s.healthy payload) (asSecs elapsed) payload := rfl

inductive ScreenEvent where
  /-- a key, and the time since the start -/
  | key (k : KeyCode) (now : ℕ)
  /-- the sampler's sleep is over -/
  | wake (now : ℕ)
  | fail (error : String)
  | reply (payload : SnapshotPayload)
  | record
deriving DecidableEq, Repr

/-- `run_ui`, which passes keys on until it ends, and `sampler_loop` -/
def Screen.step (select : List String) (s : Screen) (e : ScreenEvent) : Screen :=
  if s.quit then s
  else
    match e, s.sampler with
    | .key k now, _ => s.handleKey k now
    | .wake now, .sleeping => if s.paused then s else { s with sampler := .polling now }
    | .fail error, .polling _ => { s with sampler := .sleeping, tui := samplerPass select s.tui (.failed error) }
    | .reply payload, .polling elapsed =>
      { s with sampler := .recording elapsed payload, tui := reconcileWithSnapshot select s.tui.healthy payload }
    | .record, .recording elapsed payload =>
      let t := asSecs elapsed
      { s with
        sampler := .sleeping
        tui := recordSamples s.tui t payload
        aggregate := (aggregateSample t (rosterSamples s.tui t payload)).elim s.aggregate (pushBounded s.aggregate) }
    | _, _ => s

/-- the screen before the first key; the cadence is that of the command line, 50 ms at least -/
def Screen.start (perfMetric : PerfMetric) (refreshSecs : ℚ) : Screen :=
  { refreshNs := asU64 ⌊nearestF64 (max refreshSecs (nearestF64 (50 / 1000)) * 1000000000)⌋
    ui := UiState.new perfMetric }

end IoThreadController
