/-
The QEMU backend's client (`backends/qemu/client.rs`, `helpers.rs`, `libvirt.rs`) and the QEMU process behind it.

A resize is a sequence of QMP commands. `Qemu` is the process at the other end: its IOThreads and the virtqueue mapping of
the one managed device. A command that QEMU accepts changes it; any command may also fail without effect, which is what
`LibvirtQmp.fault` decides for the command with the given number. `LibvirtQmp.log` remembers every command issued, its
result and the state it left, so that properties of intermediate states are properties of the log.
-/
import IoThreadController.Core.RoundRobin
import IoThreadController.Model.Instance
import IoThreadController.Model.Text

namespace IoThreadController

/-- one virtio-scsi IOThread-to-virtqueue mapping entry -/
structure VqMapping where
  iothread : String
  vqs : List ℕ := []
deriving DecidableEq, Repr

structure IoThreadProperties where
  pollMaxNs : Option ℤ := none
  pollGrow : Option ℤ := none
  pollShrink : Option ℤ := none
  aioMaxBatch : Option ℤ := none
  threadPoolMin : Option ℤ := none
  threadPoolMax : Option ℤ := none
deriving DecidableEq, Repr

inductive QemuError where
  | broken
  | io (text : String)
  | qmpError (cmd errorClass desc : String)
  | parse (text : String)
deriving DecidableEq, Repr

/-- the text of the client error that a QEMU error becomes; the transport builds `io` errors of kind `Other` only -/
def QemuError.toBackendClientError : QemuError → BackendClientError
  | .broken => "transport: qemu client broken"
  | .io text => "transport: io: " ++ text
  | .qmpError cmd errorClass desc => "qmp " ++ cmd ++ " error: " ++ errorClass ++ ": " ++ desc
  | .parse text => text

/-! ## The QEMU process -/

structure Qemu where
  iothreads : Finset String := ∅
  mapping : List VqMapping := []
deriving DecidableEq

inductive QmpCommand where
  | objectAdd (id : String) (properties : Option IoThreadProperties)
  | objectDel (id : String)
  | setVqMapping (path : String) (mapping : List VqMapping)
  | qomGet (path : String)
deriving DecidableEq, Repr

/-- QEMU's own checks: a duplicate id, a missing or still mapped id, and a mapping that names a missing IOThread -/
def Qemu.execute (q : Qemu) : QmpCommand → Except QemuError Qemu
  | .objectAdd id _ =>
    if id ∈ q.iothreads then .error (.qmpError "object-add" "GenericError" "attempt to add duplicate property")
    else .ok { q with iothreads := insert id q.iothreads }
  | .objectDel id =>
    if id ∉ q.iothreads then .error (.qmpError "object-del" "GenericError" "object not found")
    else if ∃ entry ∈ q.mapping, entry.iothread = id then
      .error (.qmpError "object-del" "GenericError" "object is in use")
    else .ok { q with iothreads := q.iothreads.erase id }
  | .setVqMapping _ mapping =>
    if ∃ entry ∈ mapping, entry.iothread ∉ q.iothreads then
      .error (.qmpError "x-virtio-scsi-set-iothread-vq-mapping" "GenericError" "IOThread not found")
    else .ok { q with mapping }
  | .qomGet _ => .ok q

/-! ## Transport -/

/-- one issued command with its result and the state of QEMU after it -/
structure QmpEntry where
  command : QmpCommand
  result : Except QemuError Unit
  qemu : Qemu

structure LibvirtQmp where
  /-- the failure that strikes the command with this number, if any -/
  fault : ℕ → Option QemuError
  qemu : Qemu
  log : List QmpEntry := []

namespace LibvirtQmp

def execute (qmp : LibvirtQmp) (command : QmpCommand) : LibvirtQmp × Except QemuError Unit :=
  match qmp.fault qmp.log.length, qmp.qemu.execute command with
  | some error, _ | none, .error error =>
    ({ qmp with log := qmp.log ++ [⟨command, .error error, qmp.qemu⟩] }, .error error)
  | none, .ok qemu => ({ qmp with qemu, log := qmp.log ++ [⟨command, .ok (), qemu⟩] }, .ok ())

def addIoThread (qmp : LibvirtQmp) (id : String) (properties : Option IoThreadProperties) :
    LibvirtQmp × Except QemuError Unit :=
  if isBlank id then (qmp, .error (.parse "iothread id must be non-empty"))
  else qmp.execute (.objectAdd id properties)

def delIoThread (qmp : LibvirtQmp) (id : String) : LibvirtQmp × Except QemuError Unit :=
  if isBlank id then (qmp, .error (.parse "iothread id must be non-empty"))
  else qmp.execute (.objectDel id)

def setVqMapping (qmp : LibvirtQmp) (devicePath : String) (mapping : List VqMapping) :
    LibvirtQmp × Except QemuError Unit :=
  if isBlank devicePath then (qmp, .error (.parse "device path must be non-empty"))
  else if mapping = [] then (qmp, .error (.parse "iothread-vq-mapping must contain at least one entry"))
  else qmp.execute (.setVqMapping devicePath mapping)

def queryVqMapping (qmp : LibvirtQmp) (devicePath : String) : LibvirtQmp × Except QemuError (List VqMapping) :=
  if isBlank devicePath then (qmp, .error (.parse "device path must be non-empty"))
  else
    match qmp.execute (.qomGet devicePath) with
    | (qmp', .error error) => (qmp', .error error)
    | (qmp', .ok ()) => (qmp', .ok qmp'.qemu.mapping)

end LibvirtQmp

/-! ## Ids and mappings -/

/-- the ids that the regular expression `^iot[0-9]+$` matches -/
def isManagedIotId (id : String) : Bool :=
  match id.toList with
  | 'i' :: 'o' :: 't' :: digits => !digits.isEmpty && digits.all Char.isDigit
  | _ => false

/-- `iot{n}` -/
def iotId (n : ℕ) : String := "iot" ++ toString n

/-- the lowest unused managed id; `extra` is the counter of the ids handed out when all 1024 are taken -/
@[irreducible] def nextQemuIothreadId (existing : List String) (extra : ℕ) : String × ℕ :=
  match (List.range 1024).find? fun n => iotId n ∉ existing with
  | some n => (iotId n, extra)
  | none => ("iot-extra-" ++ toString extra, (extra + 1) % 2 ^ 64)

/-- append a virtqueue to an entry -/
def VqMapping.push (vq : ℕ) (entry : VqMapping) : VqMapping := { entry with vqs := entry.vqs ++ [vq] }

def roundRobinVqMapping (iothreadIds : List String) (vqCount : ℕ) : List VqMapping :=
  if iothreadIds = [] ∨ vqCount = 0 then []
  else
    (List.range vqCount).foldl (fun mapping vq => mapping.modify (vq % iothreadIds.length) (VqMapping.push vq))
      (iothreadIds.map fun id => ⟨id, []⟩)

/-! ## Client -/

/-- the cached topology that a resize uses -/
structure Inner where
  iothreads : List String := []
  devicePath : String := ""
  vqCount : ℕ := 0
deriving DecidableEq, Repr

structure QemuInstanceClient where
  client : LibvirtQmp
  inner : Inner
  /-- the process-wide counter behind `iot-extra-` ids -/
  extra : ℕ := 0

namespace QemuInstanceClient

/-- `s.iothreads.len() as u32` -/
def threadCount (s : QemuInstanceClient) : ℕ := s.inner.iothreads.length % 2 ^ 32

def scaleUp (s : QemuInstanceClient) : QemuInstanceClient × Except QemuError ℕ :=
  let (newId, extra) := nextQemuIothreadId s.inner.iothreads s.extra
  match s.client.addIoThread newId none with
  | (client, .error error) => ({ s with client, extra }, .error error)
  | (client, .ok ()) =>
    let newSet := (s.inner.iothreads ++ [newId]).insertionSort (· ≤ ·)
    let mapping := roundRobinVqMapping newSet s.inner.vqCount
    match client.setVqMapping s.inner.devicePath mapping with
    | (client, .error error) =>
      -- roll the new IOThread back; a failure of the rollback is only logged
      ({ s with client := (client.delIoThread newId).1, extra }, .error error)
    | (client, .ok ()) =>
      let s := { s with client, extra, inner := { s.inner with iothreads := newSet } }
      (s, .ok s.threadCount)

def scaleDown (s : QemuInstanceClient) : QemuInstanceClient × Except QemuError ℕ :=
  if s.inner.iothreads.length ≤ 1 then
    (s, .error (.parse ("refusing to scale below one iothread (have " ++ toString s.inner.iothreads.length ++ ")")))
  else
    -- the list has a last element here, so the default is never used
    let doomed := s.inner.iothreads.getLastD ""
    let remaining := s.inner.iothreads.dropLast
    let mapping := roundRobinVqMapping remaining s.inner.vqCount
    match s.client.setVqMapping s.inner.devicePath mapping with
    | (client, .error error) => ({ s with client }, .error error)
    | (client, .ok ()) =>
      match client.delIoThread doomed with
      | (client, .error error) => ({ s with client }, .error error)
      | (client, .ok ()) =>
        let s := { s with client, inner := { s.inner with iothreads := remaining } }
        (s, .ok s.threadCount)

/-- the first loop of `set_thread_count`; `none` when the fuel runs out -/
def scaleUpTo (target : ℕ) : ℕ → QemuInstanceClient → Option (QemuInstanceClient × Except QemuError Unit)
  | 0, _ => none
  | fuel + 1, s =>
    if target ≤ s.threadCount then some (s, .ok ())
    else
      match s.scaleUp with
      | (s', .error error) => some (s', .error error)
      | (s', .ok new) => if new = s.threadCount then some (s', .ok ()) else s'.scaleUpTo target fuel

/-- the second loop -/
def scaleDownTo (target : ℕ) : ℕ → QemuInstanceClient → Option (QemuInstanceClient × Except QemuError Unit)
  | 0, _ => none
  | fuel + 1, s =>
    if s.threadCount ≤ target then some (s, .ok ())
    else
      match s.scaleDown with
      | (s', .error error) => some (s', .error error)
      | (s', .ok new) => if new = s.threadCount then some (s', .ok ()) else s'.scaleDownTo target fuel

def setThreadCount (fuel : ℕ) (s : QemuInstanceClient) (target : ℕ) :
    Option (QemuInstanceClient × Except BackendClientError Unit) :=
  match s.scaleUpTo target fuel with
  | none => none
  | some (s', .error error) => some (s', .error error.toBackendClientError)
  | some (s', .ok ()) =>
    match s'.scaleDownTo target fuel with
    | none => none
    | some (s'', .error error) => some (s'', .error error.toBackendClientError)
    | some (s'', .ok ()) => some (s'', .ok ())

end QemuInstanceClient

end IoThreadController
