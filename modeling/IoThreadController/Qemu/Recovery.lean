/-
A snapshot repairs the cache.

The resizes work on a cache that failed resizes, operators and QEMU itself can all put out of step. `Healthy` is what a
resize needs: a cache in step with QEMU, a device to map, and commands that no longer fail.

- `setThreadCount_healthy`: from a healthy client every resize reaches its target.
- `refresh_coherent`: the cache that a faithful snapshot leaves is in step, whatever it held before.
- `resize_after_snapshot`: so the resize after a snapshot reaches its target, from any client whatever.
-/
import IoThreadController.Qemu.FreshIds
import IoThreadController.Qemu.Snapshots

namespace IoThreadController

namespace LibvirtQmp

variable {qmp qmp' : LibvirtQmp}

/-- no command fails from here on, unless QEMU refuses it -/
def Calm (qmp : LibvirtQmp) : Prop := ∀ n, qmp.log.length ≤ n → qmp.fault n = none

theorem Calm.later (h : qmp.Calm) (hfault : qmp'.fault = qmp.fault) (hlog : qmp.log.length ≤ qmp'.log.length) :
    qmp'.Calm := fun n hn => by rw [hfault]; exact h n (hlog.trans hn)

theorem addIoThread_calm (h : qmp.Calm) {id : String} (hblank : isBlank id = false) (hid : id ∉ qmp.qemu.iothreads)
    (properties : Option IoThreadProperties) : ∃ qmp', qmp.addIoThread id properties = (qmp', .ok ()) := by
  have haccept : qmp.qemu.execute (.objectAdd id properties) =
      .ok { qmp.qemu with iothreads := insert id qmp.qemu.iothreads } := if_neg hid
  rw [addIoThread, if_neg (by simp [hblank]), execute_accepted (h _ le_rfl) haccept]
  exact ⟨_, rfl⟩

theorem delIoThread_calm (h : qmp.Calm) {id : String} (hblank : isBlank id = false) (hid : id ∈ qmp.qemu.iothreads)
    (hfree : ∀ entry ∈ qmp.qemu.mapping, entry.iothread ≠ id) :
    ∃ qmp', qmp.delIoThread id = (qmp', .ok ()) ∧ qmp'.Calm := by
  have hunused : ¬ ∃ entry ∈ qmp.qemu.mapping, entry.iothread = id := by
    rintro ⟨entry, hentry, heq⟩
    exact hfree entry hentry heq
  have haccept : qmp.qemu.execute (.objectDel id) = .ok { qmp.qemu with iothreads := qmp.qemu.iothreads.erase id } := by
    simp only [Qemu.execute]
    rw [if_neg (not_not.2 hid), if_neg hunused]
  rw [delIoThread, if_neg (by simp [hblank]), execute_accepted (h _ le_rfl) haccept]
  exact ⟨_, rfl, h.later rfl (by simp)⟩

end LibvirtQmp

namespace QemuInstanceClient

variable {s : QemuInstanceClient}

/-- the cache is in step with QEMU, there is a device to map, and no command fails any more -/
structure Healthy (s : QemuInstanceClient) : Prop where
  coherent : Coherent s.inner s.client.qemu
  device : ¬ s.inner.Refused
  calm : s.client.Calm

/-! ## One step -/

/-- the result of a successful step is as healthy as its start -/
theorem Healthy.after {n : ℕ} {s' : QemuInstanceClient} (h : s.Healthy)
    (hresult : s.StepResult n (s', .ok s'.threadCount)) (hdevice : s'.inner.devicePath = s.inner.devicePath)
    (hcalm : s'.client.Calm) : s'.Healthy ∧ s'.inner.iothreads.length = n := by
  rcases hresult with ⟨error, herr⟩ | ⟨-, hlen, hvq, hco, -⟩
  · cases herr
  · refine ⟨⟨hco, ?_, hcalm⟩, hlen⟩
    have hrefused := h.device
    unfold Inner.Refused at hrefused ⊢
    rwa [hdevice, hvq]

theorem scaleUp_healthy {q : Qemu} (h : s.Healthy) (hlen : s.inner.iothreads.length < 1024) (hkept : s.client.Kept q) :
    ∃ s', s.scaleUp = (s', .ok s'.threadCount) ∧ s'.Healthy ∧ s'.client.Kept q ∧
      s'.inner.iothreads.length = s.inner.iothreads.length + 1 := by
  obtain ⟨hblank, hnot⟩ := next_free h.coherent hlen
  obtain ⟨hkept', hresult⟩ := scaleUp_spec h.coherent hlen hkept
  rcases hnext : nextQemuIothreadId s.inner.iothreads s.extra with ⟨newId, extra⟩
  rw [hnext] at hblank hnot
  obtain ⟨added, hadded⟩ := LibvirtQmp.addIoThread_calm h.calm hblank hnot none
  rcases scaleUp_cases hnext with ⟨client, error, hr, -⟩ | ⟨client, hr, hrest⟩
  · rw [hadded] at hr
    cases hr
  · obtain ⟨-, -, hqemu, hfault, hlog⟩ := LibvirtQmp.addIoThread_ok hr
    have hcalm : client.Calm := h.calm.later hfault (by omega)
    have hids : ∀ id ∈ (s.inner.iothreads ++ [newId]).insertionSort (· ≤ ·), id ∈ client.qemu.iothreads := by
      intro id hid
      rw [List.mem_insertionSort, List.mem_append, List.mem_singleton] at hid
      rw [hqemu]
      rcases hid with hid | rfl
      · exact Finset.mem_insert_of_mem (Finset.mem_filter.1 ((h.coherent.mem id).1 hid)).1
      · exact Finset.mem_insert_self _ _
    obtain ⟨mapped, hmapped, -, hfault2, hlog2⟩ :=
      LibvirtQmp.setVqMapping_works h.device (hcalm _ le_rfl) (newSet_ne_nil _ _) hids
    rcases hrest with ⟨client2, error, hr2, -⟩ | ⟨client2, s', hr2, hs', heq⟩
    · rw [hmapped] at hr2
      cases hr2
    · rw [hmapped] at hr2
      obtain ⟨rfl, -⟩ := Prod.mk.inj hr2
      rw [heq] at hresult hkept'
      have hcalm2 : mapped.Calm := hcalm.later hfault2 (by omega)
      obtain ⟨hhealthy, hcount⟩ := h.after hresult (by rw [hs']) (by rw [hs']; exact hcalm2)
      exact ⟨s', heq, hhealthy, hkept', hcount⟩

theorem scaleDown_healthy {q : Qemu} (h : s.Healthy) (hlen : 1 < s.inner.iothreads.length) (hkept : s.client.Kept q) :
    ∃ s', s.scaleDown = (s', .ok s'.threadCount) ∧ s'.Healthy ∧ s'.client.Kept q ∧
      s'.inner.iothreads.length = s.inner.iothreads.length - 1 := by
  obtain ⟨hkept', hresult⟩ := scaleDown_spec h.coherent hlen hkept
  obtain ⟨hsplit, hremaining⟩ := s.doomed_split hlen
  have hin : ∀ id ∈ s.inner.iothreads, id ∈ s.client.qemu.iothreads := fun id hid =>
    (Finset.mem_filter.1 ((h.coherent.mem id).1 hid)).1
  have hdoomed : s.inner.iothreads.getLastD "" ∈ s.inner.iothreads := by
    rw [← hsplit]
    simp
  have hnodup := h.coherent.nodup
  rw [← hsplit] at hnodup
  obtain ⟨-, -, hdisj⟩ := List.nodup_append.1 hnodup
  obtain ⟨mapped, hmapped, hqemu, hfault, hlog⟩ :=
    LibvirtQmp.setVqMapping_works h.device (h.calm _ le_rfl) hremaining fun id hid => hin id (List.dropLast_subset _ hid)
  have hcalm : mapped.Calm := h.calm.later hfault (by omega)
  -- the new mapping names the remaining IOThreads only, so QEMU lets the last one go
  have hfree : ∀ entry ∈ mapped.qemu.mapping, entry.iothread ≠ s.inner.iothreads.getLastD "" := by
    intro entry hentry
    rw [hqemu] at hentry
    have hname := List.mem_map_of_mem (f := VqMapping.iothread) hentry
    rw [roundRobinVqMapping_iothreads fun hvq => h.device (Or.inr hvq)] at hname
    exact hdisj _ hname _ (List.mem_singleton.2 rfl)
  obtain ⟨deleted, hdeleted, hcalm2⟩ := LibvirtQmp.delIoThread_calm hcalm
    (not_isBlank_of_managed (h.coherent.isManaged hdoomed)) (by rw [hqemu]; exact hin _ hdoomed) hfree
  rcases scaleDown_cases hlen with ⟨client, error, hr, -⟩ | ⟨client, hr, hrest⟩
  · rw [hmapped] at hr
    cases hr
  · rw [hmapped] at hr
    obtain ⟨rfl, -⟩ := Prod.mk.inj hr
    rcases hrest with ⟨client2, error, hr2, -⟩ | ⟨client2, s', hr2, hs', heq⟩
    · rw [hdeleted] at hr2
      cases hr2
    · rw [hdeleted] at hr2
      obtain ⟨rfl, -⟩ := Prod.mk.inj hr2
      rw [heq] at hresult hkept'
      obtain ⟨hhealthy, hcount⟩ := h.after hresult (by rw [hs']) (by rw [hs']; exact hcalm2)
      exact ⟨s', heq, hhealthy, hkept', hcount⟩

/-! ## Whole resizes -/

theorem scaleUpTo_healthy {q : Qemu} {target fuel : ℕ} (ht : target < 1024) (h : s.Healthy)
    (hlen : s.inner.iothreads.length < 1024) (hkept : s.client.Kept q) {s' : QemuInstanceClient}
    {r : Except QemuError Unit} (hrun : s.scaleUpTo target fuel = some (s', r)) : r = .ok () ∧ s'.Healthy := by
  induction fuel generalizing s with
  | zero => simp [scaleUpTo] at hrun
  | succ fuel ih =>
    have hcount : s.threadCount = s.inner.iothreads.length := threadCount_eq (by omega)
    rw [scaleUpTo] at hrun
    split_ifs at hrun with hdone
    · cases hrun
      exact ⟨rfl, h⟩
    · obtain ⟨s1, hstep, h1, hkept1, hlen1⟩ := scaleUp_healthy h hlen hkept
      have hcount1 : s1.threadCount = s1.inner.iothreads.length := threadCount_eq (by omega)
      rw [hstep] at hrun
      dsimp only at hrun
      rw [if_neg (by omega)] at hrun
      exact ih h1 (by omega) hkept1 hrun

theorem scaleDownTo_healthy {q : Qemu} {target fuel : ℕ} (ht : 1 ≤ target) (h : s.Healthy)
    (hlen : s.inner.iothreads.length < 1024) (hkept : s.client.Kept q) {s' : QemuInstanceClient}
    {r : Except QemuError Unit} (hrun : s.scaleDownTo target fuel = some (s', r)) : r = .ok () ∧ s'.Healthy := by
  induction fuel generalizing s with
  | zero => simp [scaleDownTo] at hrun
  | succ fuel ih =>
    have hcount : s.threadCount = s.inner.iothreads.length := threadCount_eq (by omega)
    rw [scaleDownTo] at hrun
    split_ifs at hrun with hdone
    · cases hrun
      exact ⟨rfl, h⟩
    · obtain ⟨s1, hstep, h1, hkept1, hlen1⟩ := scaleDown_healthy h (by omega) hkept
      have hcount1 : s1.threadCount = s1.inner.iothreads.length := threadCount_eq (by omega)
      rw [hstep] at hrun
      dsimp only at hrun
      rw [if_neg (by omega)] at hrun
      exact ih h1 (by omega) hkept1 hrun

/-- a resize of a healthy client succeeds, leaves it healthy, and what a successful resize does is known -/
theorem setThreadCount_healthy {q : Qemu} {target : ℕ} (ht : 1 ≤ target ∧ target ≤ 1023) (h : s.Healthy)
    (hlen : s.inner.iothreads.length < 1024) (hkept : s.client.Kept q) :
    ∃ s', (∀ fuel, 1024 ≤ fuel → s.setThreadCount fuel target = some (s', .ok ())) ∧ s'.client.Kept q ∧
      s.Resized s' target ∧ s'.Healthy := by
  obtain ⟨s', r, hrun, hkept', hdone⟩ := setThreadCount_spec ht h.coherent hlen hkept
  obtain ⟨s1, r1, hup, hkept1, hmax⟩ := scaleUpTo_spec (show target < 1024 by omega) h.coherent hlen hkept
  obtain ⟨rfl, h1⟩ := scaleUpTo_healthy (by omega) h hlen hkept (hup 1024 (by omega))
  have hlen1 := (hmax rfl).length
  obtain ⟨s2, r2, hdown, -, -⟩ := scaleDownTo_spec ht.1 h1.coherent (by omega) hkept1
  obtain ⟨rfl, h2⟩ := scaleDownTo_healthy ht.1 h1 (by omega) hkept1 (hdown 1024 (by omega))
  have hok : s.setThreadCount 1024 target = some (s2, .ok ()) := by
    simp only [setThreadCount, hup 1024 (by omega), hdown 1024 (by omega)]
  obtain ⟨rfl, rfl⟩ := Prod.mk.inj (Option.some.inj ((hrun 1024 le_rfl).symm.trans hok))
  exact ⟨s', hrun, hkept', hdone rfl, h2⟩

end QemuInstanceClient

/-! ## The repaired cache -/

/-- a metrics text that is faithful to QEMU fills the cache with QEMU's managed IOThreads -/
theorem refresh_coherent {body : String} {q : Qemu} (h : MetricsOf body q) :
    Coherent ⟨(QemuTopology.new body).iothreads, (QemuTopology.new body).devicePath, (QemuTopology.new body).vqCount⟩ q := by
  have hreports := new_reports body
  refine ⟨hreports.sorted.imp fun hlt => Std.le_of_lt hlt, ?_, fun id => ?_⟩
  · apply hreports.sorted.imp
    rintro a b hlt rfl
    exact String.lt_irrefl a hlt
  · rw [Qemu.managed, Finset.mem_filter]
    constructor
    · intro hid
      refine ⟨h.only id ?_, hreports.managed id hid⟩
      rw [← hreports.tids, ← Std.ExtTreeMap.mem_iff_isSome_getElem?]
      exact (hreports.keys id).1 hid
    · rintro ⟨hid, hmanaged⟩
      obtain ⟨tid, htid, hline⟩ := h.complete id hid
      exact mem_iothreads_of_line hmanaged htid hline

/-- a snapshot of a QEMU with metrics that succeeds has put the topology of its text into the cache -/
theorem snapshot_through {ticksPerSecond : ℕ} {env : SnapshotEnv} {s s' : QemuVmClient} {snapshot : ThreadPoolSnapshot}
    {body : String} (hbody : env.metrics = .ok body)
    (h : s.getThreadPoolSnapshot ticksPerSecond env = (s', .ok snapshot)) :
    let topo := QemuTopology.new body
    s'.base = { s.base with inner := ⟨topo.iothreads, topo.devicePath, topo.vqCount⟩ } ∧
      snapshot.threadCount = topo.iothreads.length % 2 ^ 32 := by
  intro topo
  rcases QemuVmClient.snapshot_cases ticksPerSecond env s with
    ⟨topo', pid, sample, hreading, heq⟩ | ⟨-, ⟨error, herror, -⟩, -⟩ | ⟨-, -, error, heq⟩
  · rw [heq] at h
    cases h
    have htopo : topo' = topo := by
      unfold SnapshotEnv.reading at hreading
      rw [hbody] at hreading
      dsimp only at hreading
      split_ifs at hreading
      obtain ⟨found, -, hfound⟩ := Option.map_eq_some_iff.1 hreading
      exact (Prod.mk.inj hfound).1.symm
    rw [htopo]
    exact ⟨rfl, rfl⟩
  · rw [hbody] at herror
    cases herror
  · rw [heq] at h
    cases h

/-! ## Snapshot, then resize -/

theorem call_snapshot_iff {ticksPerSecond : ℕ} {env : SnapshotEnv} {fault : ℕ → Option QemuError} {s s' : QemuVmClient}
    {result : Except BackendClientError ThreadPoolSnapshot} :
    s.call ticksPerSecond env fault .getThreadPoolSnapshot = (s', .snapshot result) ↔
      (s.begin fault).getThreadPoolSnapshot ticksPerSecond env = (s', result) := by
  change (((s.begin fault).getThreadPoolSnapshot ticksPerSecond env).1,
    ClientReply.snapshot ((s.begin fault).getThreadPoolSnapshot ticksPerSecond env).2) = _ ↔ _
  simp only [Prod.ext_iff, ClientReply.snapshot.injEq]

theorem Coherent.card_eq {inner : Inner} {q : Qemu} (h : Coherent inner q) : q.managed.card = inner.iothreads.length := by
  rw [h.managed_eq, List.toFinset_card_of_nodup h.nodup]

/-- a resize during which no command fails, from a client whose cache is in step -/
theorem resize_calm {s : QemuVmClient} {target : ℕ} (ht : 1 ≤ target ∧ target ≤ 1023)
    (hco : Coherent s.base.inner s.base.client.qemu) (hdevice : ¬ s.base.inner.Refused)
    (hlen : s.base.inner.iothreads.length < 1024) :
    ∃ base, (s.begin fun _ => none).setThreadCount target = ({ s with base }, .ok ()) ∧ base.Healthy ∧
      base.client.qemu.unmanaged = s.base.client.qemu.unmanaged ∧ (s.begin fun _ => none).base.Resized base target := by
  have hkept : (LibvirtQmp.mk (fun _ => none) s.base.client.qemu []).Kept s.base.client.qemu := by
    refine ⟨fun hq => ⟨hq, fun entry he => ?_⟩, rfl, fun entry he => ?_⟩ <;> cases he
  obtain ⟨base, hrun, hkept', hresized, hhealthy⟩ := QemuInstanceClient.setThreadCount_healthy
    (s := (s.begin fun _ => none).base) ht ⟨hco, hdevice, fun _ _ => rfl⟩ hlen hkept
  have hturns : (1024 : ℕ) ≤ QemuVmClient.resizeFuel := by norm_num [QemuVmClient.resizeFuel]
  refine ⟨base, ?_, hhealthy, hkept'.unmanaged.1, hresized⟩
  unfold QemuVmClient.setThreadCount
  rw [hrun _ hturns]
  rfl

theorem call_resize {ticksPerSecond : ℕ} {env : SnapshotEnv} {fault : ℕ → Option QemuError} {s s' : QemuVmClient}
    {target : ℕ} {result : Except BackendClientError Unit} (h : (s.begin fault).setThreadCount target = (s', result)) :
    s.call ticksPerSecond env fault (.setThreadCount target) = (s', .unit result) := by
  change (((s.begin fault).setThreadCount target).1, ClientReply.unit ((s.begin fault).setThreadCount target).2) = _
  rw [h]

/-- whatever a client has been through: a snapshot that succeeds on a text faithful to QEMU counts QEMU's managed
IOThreads, and the next resize, if no command fails during it, ends with exactly `target` of them in QEMU and in the cache,
with the other IOThreads untouched and, if the count changed, the virtqueues dealt evenly over them -/
theorem resize_after_snapshot (ticksPerSecond : ℕ) (s : QemuVmClient) (env env' : SnapshotEnv)
    (fault : ℕ → Option QemuError) (body : String) (hbody : env.metrics = .ok body)
    (hmetrics : MetricsOf body s.base.client.qemu) (hsize : s.base.client.qemu.managed.card < 1024)
    (hdevice : ¬ (isBlank (managedDevice body).1 = true ∨ (managedDevice body).2 = 0)) (target : ℕ)
    (ht : 1 ≤ target ∧ target ≤ 1023) {s' : QemuVmClient} {snapshot : ThreadPoolSnapshot}
    (h : s.call ticksPerSecond env fault .getThreadPoolSnapshot = (s', .snapshot (.ok snapshot))) :
    snapshot.threadCount = s.base.client.qemu.managed.card ∧
      ∃ s'', s'.call ticksPerSecond env' (fun _ => none) (.setThreadCount target) = (s'', .unit (.ok ())) ∧
        s''.base.client.qemu.managed = s''.base.inner.iothreads.toFinset ∧
        s''.base.client.qemu.managed.card = target ∧ s''.base.inner.iothreads.length = target ∧
        s''.base.client.qemu.unmanaged = s.base.client.qemu.unmanaged ∧
        (s.base.client.qemu.managed.card ≠ target →
          Balanced s''.base.client.qemu.mapping s''.base.inner.iothreads (managedDevice body).2) := by
  obtain ⟨hbase, hcount⟩ := snapshot_through hbody (call_snapshot_iff.1 h)
  have hqemu : s'.base.client.qemu = s.base.client.qemu := by rw [hbase]; rfl
  have hco : Coherent s'.base.inner s.base.client.qemu := by rw [hbase]; exact refresh_coherent hmetrics
  have hlen : s'.base.inner.iothreads.length = s.base.client.qemu.managed.card := hco.card_eq.symm
  have hmanaged : (s'.base.inner.devicePath, s'.base.inner.vqCount) = managedDevice body := by
    rw [hbase]
    exact new_device body
  have hvq : s'.base.inner.vqCount = (managedDevice body).2 := congrArg Prod.snd hmanaged
  obtain ⟨base, hresize, -, hunmanaged, hresized⟩ := resize_calm ht (hqemu.symm ▸ hco)
    (by rw [← hmanaged] at hdevice; exact hdevice) (by omega)
  refine ⟨?_, _, call_resize hresize, hresized.coherent.managed_eq, ?_, hresized.length, hunmanaged.trans (by rw [hqemu]), fun hne => ?_⟩
  · rw [hcount, ← hlen, hbase]
    rw [hbase] at hlen
    dsimp only at hlen ⊢
    exact Nat.mod_eq_of_lt (by omega)
  · exact hresized.coherent.card_eq.trans hresized.length
  · have hspread := hresized.spread (by rw [← hlen] at hne; exact hne)
    have hids : base.inner.iothreads ≠ [] := by
      intro hnil
      have hlength := hresized.length
      rw [hnil, List.length_nil] at hlength
      omega
    have hcountvq : base.inner.vqCount = (managedDevice body).2 := hresized.vqCount.trans hvq
    rw [← hcountvq]
    dsimp only
    rw [hspread.mapping]
    exact roundRobinVqMapping_balanced hresized.coherent.nodup hids hspread.vqCount

/-- one managed IOThread beside another one, and a device with four virtqueues -/
def bootMetrics : String :=
  "qemu_iothread_info\x7bid=\"iot0\",tid=\"11\"\x7d 1\nqemu_iothread_info\x7bid=\"boot\",tid=\"12\"\x7d 1\n" ++
    "qemu_virtio_scsi_num_queues\x7bdevice=\"scsi0\"\x7d 4\n"

/-- the reply that carries it -/
def bootReply : String :=
  "\x7b\"return\":\x7b\"human-readable-text\":\"qemu_iothread_info\x7bid=\\\"iot0\\\",tid=\\\"11\\\"\x7d 1\\n" ++
    "qemu_iothread_info\x7bid=\\\"boot\\\",tid=\\\"12\\\"\x7d 1\\n" ++
    "qemu_virtio_scsi_num_queues\x7bdevice=\\\"scsi0\\\"\x7d 4\\n\"\x7d\x7d"

/-- the monitor of that VM answers this one command -/
def bootMonitor : QmpMonitor where
  json :=
    { parse := fun text =>
        if text = bootReply then
          some (.object [("return", .object [("human-readable-text", .scalar (.string bootMetrics))])])
        else none
      message := fun _ => "expected value"
      mapping := fun _ => .error "invalid type" }
  command request :=
    match request with
    | .object [("execute", .scalar (.string "x-query-prometheus-metrics"))] => .ok bootReply
    | _ => .error (.io "qemu_monitor_command: timed out")

def bootEnv : SnapshotEnv where
  monitor := bootMonitor
  message _ := "invalid type"
  proc :=
    { opens := fun pid => pid = 10 ∨ pid = 11
      tgid := fun _ => .ok 10
      stat := fun pid tid => if pid = 10 ∧ tid = 11 then some (300, 20) else none }
  now := 0

/-- the cache lists an IOThread that QEMU does not have, and lacks one that it has -/
def strayClient : QemuVmClient :=
  { base := ⟨⟨fun _ => none, ⟨{"iot0", "boot"}, [⟨"boot", [0, 1, 2, 3]⟩]⟩, []⟩, ⟨["iot7"], "", 0⟩, 0⟩, vcpuCount := 8 }

theorem bootMetrics_of : MetricsOf bootMetrics strayClient.base.client.qemu := by
  have hreadings : readings bootMetrics = [.thread "iot0" 11, .queues "scsi0" 4] := by decide +kernel
  refine ⟨fun id hid => ?_, fun id hid => ?_⟩
  · have hids : id = "iot0" ∨ id = "boot" := by simpa [strayClient] using hid
    rcases hids with rfl | rfl
    · exact ⟨11, by norm_num, by decide +kernel⟩
    · exact ⟨12, by norm_num, by decide +kernel⟩
  · unfold reportedTid at hid
    rw [hreadings] at hid
    have hid' : "iot0" = id := by
      by_contra hne
      simp [Reading.tidOf, hne] at hid
    simp [strayClient, ← hid']

theorem resize_after_snapshot_stray :
    ∃ s' snapshot s'', strayClient.call 100 bootEnv (fun _ => none) .getThreadPoolSnapshot = (s', .snapshot (.ok snapshot)) ∧
      snapshot.threadCount = 1 ∧ s'.call 100 bootEnv (fun _ => none) (.setThreadCount 3) = (s'', .unit (.ok ())) ∧
      s''.base.client.qemu.managed.card = 3 ∧ Balanced s''.base.client.qemu.mapping s''.base.inner.iothreads 4 := by
  have hbody : bootEnv.metrics = .ok bootMetrics := by decide +kernel
  have hcard : strayClient.base.client.qemu.managed.card = 1 := by decide +kernel
  have hdevice : managedDevice bootMetrics = ("scsi0", 4) := by decide +kernel
  have hreading : bootEnv.reading ≠ none := by
    have hsome : bootEnv.reading.isSome = true := by decide +kernel
    exact Option.isSome_iff_ne_none.1 hsome
  rcases QemuVmClient.snapshot_cases 100 bootEnv (strayClient.begin fun _ => none) with
    ⟨topo, pid, sample, -, heq⟩ | ⟨hnone, -⟩ | ⟨hnone, -⟩
  · have hcall := call_snapshot_iff.2 heq
    obtain ⟨hcount, s'', hresize, -, htarget, -, -, hbalanced⟩ := resize_after_snapshot 100 strayClient bootEnv bootEnv
      (fun _ => none) bootMetrics hbody bootMetrics_of (by rw [hcard]; decide) (by rw [hdevice]; decide) 3 (by decide) hcall
    rw [hdevice] at hbalanced
    exact ⟨_, _, s'', hcall, hcount.trans hcard, hresize, htarget, hbalanced (by rw [hcard]; decide)⟩
  · exact absurd hnone hreading
  · exact absurd hnone hreading

end IoThreadController
