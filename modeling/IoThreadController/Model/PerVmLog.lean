/-
Log events and the per-VM log files (`per_vm_log.rs`, `Display` of `instance.rs`).

An event is its target and its fields as they are recorded, the message among them under the name `message`. Writing is a
list of effects; the clock's text and the failures of the file system are the environment.
-/
import IoThreadController.Model.Include
import IoThreadController.Model.Instance
import IoThreadController.Model.Text

namespace IoThreadController

structure LogEvent where
  target : String
  fields : List (String × String)
deriving DecidableEq, Repr

/-- target of the events that belong in per-VM files only -/
def perVmTarget : String := "per_vm"

/-- `instance.to_string()` -/
def Instance.display (i : Instance) : String := String.ofList (trim i.id.toList)

/-! ## Paths as text -/

/-- `Path::new` of a text -/
def PathBuf.ofString (s : String) : PathBuf :=
  ⟨s.toList.head? = some '/', ((s.toList.splitOn '/').filter (· ≠ [])).map String.ofList⟩

/-- `Path::display` -/
def PathBuf.display (path : PathBuf) : String :=
  (if path.absolute then "/" else "") ++ String.intercalate "/" path.comps

/-! ## Records -/

/-- one event split into its VM, message and remaining `key=value` fields -/
structure Record where
  vm : Option String := none
  message : Option String := none
  fields : String := ""
deriving DecidableEq, Repr

namespace Record

def record (r : Record) (field : String × String) : Record :=
  let (name, value) := field
  if name = "vm" then { r with vm := some value }
  else if name = "message" then { r with message := some value }
  else { r with fields := (if r.fields = "" then "" else r.fields ++ " ") ++ name ++ "=" ++ value }

/-- the message, if any, followed by the remaining fields -/
def line (r : Record) : String :=
  match r.message with
  | some message => if r.fields = "" then message else message ++ " " ++ r.fields
  | none => r.fields

end Record

/-- `event.record(&mut record)` -/
def LogEvent.record (event : LogEvent) : Record := event.fields.foldl Record.record {}

/-! ## Files -/

structure PerVmLog where
  /-- destination directory; without one there are no per-VM files -/
  dir : Option PathBuf := none
  /-- VMs whose I/O failures were already reported -/
  warned : List String := []
deriving DecidableEq, Repr

inductive LogEffect where
  | createDirAll (path : PathBuf)
  | append (path : PathBuf) (text : String)
  | eprint (text : String)
deriving DecidableEq, Repr

/-- the clock, and what goes wrong -/
structure LogEnv where
  timestamp : String
  createFault : Option String := none
  writeFault : Option String := none

/-- a character of a file name -/
def sanitise (c : Char) : Char := if c.isAlphanum || ['-', '_', '.'].contains c then c else '_'

namespace PerVmLog

/-- the log file of a VM -/
def path (log : PerVmLog) (vm : String) : Option PathBuf :=
  log.dir.map fun dir => dir.join (PathBuf.ofString (String.ofList (vm.toList.map sanitise) ++ ".log"))

/-- report the first failure for a VM -/
def warn (log : PerVmLog) (vm : String) (path : PathBuf) (error : String) : PerVmLog × List LogEffect :=
  if vm ∈ log.warned then (log, [])
  else
    ({ log with warned := vm :: log.warned },
      [.eprint ("WARN failed to write per-VM log path=" ++ path.display ++ " error=" ++ error)])

def append (log : PerVmLog) (env : LogEnv) (vm line : String) : PerVmLog × List LogEffect :=
  match log.path vm with
  | none => (log, [])
  | some path =>
    let created := path.parent.toList.map LogEffect.createDirAll
    match (path.parent.bind fun _ => env.createFault).or env.writeFault with
    | some error => ((log.warn vm path error).1, created ++ (log.warn vm path error).2)
    | none => (log, created ++ [.append path (env.timestamp ++ " " ++ line ++ "\n")])

/-- `on_event` -/
def onEvent (log : PerVmLog) (env : LogEnv) (event : LogEvent) : PerVmLog × List LogEffect :=
  if log.dir = none then (log, [])
  else
    match event.record.vm with
    | none => (log, [])
    | some vm => log.append env vm event.record.line

end PerVmLog

end IoThreadController
