/-
What the QEMU backend reads besides QMP replies (`QemuTopology` and `CpuSample` of `backends/qemu/helpers.rs`).

The metrics are text lines `name{label="value",...} number`. Each of the three lines that the daemon reads has a regular
expression of its own; they differ in the name only. Maps of the source are extensional ordered maps.
-/
import IoThreadController.Model.Qemu
import IoThreadController.Model.Text

namespace IoThreadController

open Std (ExtTreeMap)

/-! ## One line -/

/-- the characters of `[0-9.eE+\-]` -/
def isNumberChar (c : Char) : Bool := c.isDigit || ['.', 'e', 'E', '+', '-'].contains c

/-- the captures of `^<metric>\{([^}]*)\}\s+([0-9.eE+\-]+)` -/
def captures (metric : String) (line : List Char) : Option (List Char × List Char) :=
  match line.dropPrefix? (metric.toList ++ ['{']) with
  | none => none
  | some rest =>
    match rest.dropWhile (· ≠ '}') with
    | [] => none
    | _ :: tail =>
      let number := (tail.dropWhile isWhitespace).takeWhile isNumberChar
      if tail.takeWhile isWhitespace = [] ∨ number = [] then none else some (rest.takeWhile (· ≠ '}'), number)

/-- `IOTHREAD_INFO_RE` -/
def iothreadInfo : String := "qemu_iothread_info"

/-- `VIRTIO_SCSI_NUM_QUEUES_RE` -/
def virtioScsiNumQueues : String := "qemu_virtio_scsi_num_queues"

/-- `VIRTIO_SCSI_VQ_INFLIGHT_RE` -/
def virtioScsiVqInflight : String := "qemu_virtio_scsi_vq_inflight"

/-- one piece of a label list goes into the map, unless it is blank or has no `=` -/
def insertLabel (out : ExtTreeMap String String) (piece : List Char) : ExtTreeMap String String :=
  let kv := trim piece
  if kv = [] then out
  else
    match kv.dropWhile (· ≠ '=') with
    | [] => out
    | _ :: value =>
      out.insert (String.ofList (trim (kv.takeWhile (· ≠ '=')))) (String.ofList (trimMatches '"' (trim value)))

/-- parse a Prometheus label list into unquoted key and value pairs -/
def parseQemuLabels (labels : List Char) : ExtTreeMap String String :=
  (labels.splitOn ',').foldl insertLabel ∅

/-! ## The whole text -/

structure QemuTopology where
  /-- managed IOThread ids, sorted -/
  iothreads : List String := []
  /-- host task id of each managed IOThread -/
  iothreadTids : ExtTreeMap String ℤ := ∅
  /-- QOM path of the managed virtio-scsi device -/
  devicePath : String := ""
  vqCount : ℕ := 0
  /-- requests in flight for each command virtqueue of the managed device, indexed by queue -/
  vqInflight : List ℕ := []

/-- depths of every device, by device and then by queue -/
abbrev Inflight := ExtTreeMap String (ExtTreeMap ℕ ℕ)

namespace QemuTopology

/-- an in-flight line, of any device -/
def readInflight (inflight : Inflight) (labels number : List Char) : Inflight :=
  let lbls := parseQemuLabels labels
  match lbls["device"]?, lbls["vq"]?.bind fun vq => parseUsize vq.toList, parseF64 number with
  | some device, some vq, some depth =>
    inflight.insert device ((inflight[device]?.getD ∅).insert vq (asU64 ⌊max depth 0⌋))
  | _, _, _ => inflight

/-- an IOThread line: only managed ids with a task id count -/
def readIothread (topo : QemuTopology) (labels : List Char) : QemuTopology :=
  let lbls := parseQemuLabels labels
  match lbls["id"]? with
  | none => topo
  | some id =>
    if id = "" ∨ isManagedIotId id = false then topo
    else
      match parseI32 ((lbls["tid"]?.or lbls["thread_id"]?).getD "").toList with
      | none => topo
      | some tid => { topo with iothreadTids := topo.iothreadTids.insert id tid }

/-- a queue-count line: the first usable one names the managed device -/
def readNumQueues (topo : QemuTopology) (labels number : List Char) : QemuTopology :=
  let lbls := parseQemuLabels labels
  let path := (lbls["device"]?.or lbls["path"]?).getD ""
  if path = "" then topo
  else
    match parseF64 number with
    | none => topo
    | some v => { topo with devicePath := path, vqCount := asU16 v }

/-- one turn of the loop over the lines -/
def readLine (state : QemuTopology × Inflight) (line : List Char) : QemuTopology × Inflight :=
  let (topo, inflight) := state
  if line.head? = some '#' then state
  else
    match captures virtioScsiVqInflight line with
    | some (labels, number) => (topo, readInflight inflight labels number)
    | none =>
      match captures iothreadInfo line with
      | some (labels, _) => (topo.readIothread labels, inflight)
      | none =>
        if topo.devicePath ≠ "" then state
        else
          match captures virtioScsiNumQueues line with
          | some (labels, number) => (topo.readNumQueues labels number, inflight)
          | none => state

/-- what follows the loop: the sorted ids, and the depths of the managed device -/
def finish (state : QemuTopology × Inflight) : QemuTopology :=
  let (topo, inflight) := state
  let topo :=
    if topo.iothreadTids.isEmpty then topo
    else { topo with iothreads := topo.iothreadTids.keys.insertionSort (· ≤ ·) }
  match inflight[topo.devicePath]? with
  | some perVq => { topo with vqInflight := perVq.toList.map Prod.snd }
  | none => topo

/-- `QemuTopology::new` -/
def new (body : String) : QemuTopology := finish ((lines body).foldl readLine ({}, ∅))

end QemuTopology

/-! ## CPU counters -/

/-- cumulative jiffies by task at one time; the order of the entries is the one in which a loop over the map meets them -/
structure QemuCpuSample where
  jiffies : List (ℤ × ℕ)
  distinct : (jiffies.map Prod.fst).Nodup
  wall : Instant

namespace QemuCpuSample

/-- one turn of the loop over the current counters -/
def addShare (ticksPerSecond : ℕ) (elapsed : ℚ) (prev : QemuCpuSample) (acc : ℚ × ℕ) (entry : ℤ × ℕ) : ℚ × ℕ :=
  match prev.jiffies.find? fun e => e.1 = entry.1 with
  | none => acc
  | some (_, before) =>
    if entry.2 < before then acc
    else (acc.1 + clampUnit (((entry.2 - before : ℕ) : ℚ) / ticksPerSecond / elapsed), acc.2 + 1)

/-- `diff_jiffies_sample`: the mean utilisation of the tasks between two samples -/
def diffJiffiesSample (ticksPerSecond : ℕ) (prev cur : QemuCpuSample) : ℚ :=
  match checkedDurationSince cur.wall prev.wall with
  | none => 0
  | some elapsed =>
    if asSecs elapsed ≤ 0 then 0
    else
      let (total, counted) := cur.jiffies.foldl (addShare ticksPerSecond (asSecs elapsed) prev) (0, 0)
      if counted = 0 then 0 else total / counted

end QemuCpuSample

end IoThreadController
