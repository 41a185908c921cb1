/-
Discovery by the QEMU backend (`backends/qemu/mod.rs`, `libvirt.rs`) and the libvirtd it talks to.

libvirtd starts, stops and restarts at any time, also in the middle of a pass. A connection belongs to one start of
libvirtd: every call over it fails once that libvirtd is gone, and opening succeeds exactly while one is up.
-/
import IoThreadController.Model.Text

namespace IoThreadController

/-! ## libvirtd -/

structure Libvirtd where
  up : Bool := false
  /-- how often it has been started -/
  starts : ℕ := 0
deriving DecidableEq, Repr

inductive LibvirtdEvent where
  | start
  | stop
  | restart
deriving DecidableEq, Repr

def Libvirtd.step (d : Libvirtd) : LibvirtdEvent → Libvirtd
  | .start => if d.up then d else ⟨true, d.starts + 1⟩
  | .stop => { d with up := false }
  | .restart => ⟨true, d.starts + 1⟩

def Libvirtd.run (d : Libvirtd) (events : List LibvirtdEvent) : Libvirtd := events.foldl Libvirtd.step d

/-- what libvirt says of one active VM; `none` is a failed query -/
structure ActiveVm where
  uuid : Option String
  xml : Option String
deriving DecidableEq, Repr

/-- the active VMs, and the per-VM queries by UUID -/
structure Hypervisor where
  vms : List ActiveVm
  hostPid : String → Option ℤ := fun _ => none
  /-- an `int` in libvirt, so that the cast to `u32` keeps it -/
  maxVcpus : String → Option ℕ

/-! ## Connection -/

structure LibvirtConn where
  uri : String
  /-- the start of libvirtd that it was opened to -/
  session : ℕ
deriving DecidableEq, Repr

namespace LibvirtConn

/-- calls over the connection succeed: its libvirtd is still up -/
def Works (conn : LibvirtConn) (d : Libvirtd) : Prop := d.up = true ∧ conn.session = d.starts

instance (conn : LibvirtConn) (d : Libvirtd) : Decidable (conn.Works d) := by unfold Works; infer_instance

/-- `LibvirtConn::open` -/
def openUri (uri : String) (d : Libvirtd) : Option LibvirtConn := if d.up then some ⟨uri, d.starts⟩ else none

/-- `line.contains(text)` -/
def containsText (line text : List Char) : Bool := line.tails.any fun tail => text.isPrefixOf tail

/-- a line of the XML that opens a virtio-scsi controller -/
def lineHasVirtioScsi (line : List Char) : Bool :=
  "<controller".toList.isPrefixOf (line.dropWhile isWhitespace) &&
    (containsText line "type='scsi'".toList || containsText line "type=\"scsi\"".toList) &&
    (containsText line "model='virtio-scsi'".toList || containsText line "model=\"virtio-scsi\"".toList)

def xmlHasVirtioScsi (xml : String) : Bool := (xml.toList.splitOn '\n').any lineHasVirtioScsi

/-- a listed VM whose UUID and XML could be read and that has a virtio-scsi controller -/
def listed (vm : ActiveVm) : Option String :=
  match vm.uuid, vm.xml with
  | some uuid, some xml => if xmlHasVirtioScsi xml then some uuid else none
  | _, _ => none

def listQemuVms (conn : LibvirtConn) (d : Libvirtd) (hv : Hypervisor) : Option (List String) :=
  if conn.Works d then some ((hv.vms.filterMap listed).insertionSort (· ≤ ·)) else none

def qemuMaxVcpus (conn : LibvirtConn) (d : Libvirtd) (hv : Hypervisor) (uuid : String) : Option ℕ :=
  if conn.Works d then hv.maxVcpus uuid else none

def qemuHostPid (conn : LibvirtConn) (d : Libvirtd) (hv : Hypervisor) (uuid : String) : Option ℤ :=
  if conn.Works d then hv.hostPid uuid else none

end LibvirtConn

/-! ## Backend -/

/-- one VM that a pass returns -/
structure QemuVm where
  id : VmId
  sockPath : String
  pid : ℤ
  vcpuCount : ℕ
  conn : LibvirtConn
deriving DecidableEq, Repr

structure QemuBackend where
  libvirtUri : String
  conn : Option LibvirtConn := none
deriving DecidableEq, Repr

namespace QemuBackend

def getOrOpenConn (b : QemuBackend) (d : Libvirtd) : QemuBackend × Option LibvirtConn :=
  match b.conn.filter fun c => c.uri = b.libvirtUri with
  | some c => (b, some c)
  | none =>
    match LibvirtConn.openUri b.libvirtUri d with
    | some c => ({ b with conn := some c }, some c)
    | none => (b, none)

/-- the record of one listed VM; a VM without a positive vCPU count is skipped -/
def record (b : QemuBackend) (conn : LibvirtConn) (d : Libvirtd) (hv : Hypervisor) (uuid : String) : Option QemuVm :=
  let pid := (conn.qemuHostPid d hv uuid).getD 0
  match conn.qemuMaxVcpus d hv uuid with
  | some count => if 0 < count then some ⟨uuid, b.libvirtUri, pid, count, conn⟩ else none
  | none => none

/-- `discover`; libvirtd is `opening` when the connection is looked up, `listing` when the VMs are listed, and `querying`
at the per-VM queries -/
def discover (b : QemuBackend) (opening listing querying : Libvirtd) (hv : Hypervisor) : QemuBackend × List QemuVm :=
  match b.getOrOpenConn opening with
  | (b, none) => (b, [])
  | (b, some conn) =>
    match conn.listQemuVms listing hv with
    | none => (b, [])
    | some uuids => (b, uuids.filterMap (b.record conn querying hv))

end QemuBackend

/-! ## Passes and libvirtd together -/

structure Discovery where
  backend : QemuBackend
  libvirtd : Libvirtd

inductive DiscoveryEvent where
  | libvirtd (event : LibvirtdEvent)
  /-- a pass, with what happens to libvirtd before the listing and before the per-VM queries -/
  | pass (beforeListing beforeQueries : List LibvirtdEvent) (hv : Hypervisor)

def discoveryStep (s : Discovery) : DiscoveryEvent → Discovery
  | .libvirtd event => { s with libvirtd := s.libvirtd.step event }
  | .pass beforeListing beforeQueries hv =>
    let listing := s.libvirtd.run beforeListing
    let querying := listing.run beforeQueries
    ⟨(s.backend.discover s.libvirtd listing querying hv).1, querying⟩

end IoThreadController
