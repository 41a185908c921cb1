/-
Discovery across restarts of libvirtd.

The backend opens a connection when it has none and keeps it for good. A pass made while libvirtd is up is complete
exactly when that connection was opened to the libvirtd now running; a connection that has gone stale once stays so.

- `DiscoveryInv`: the cached connection has the configured URI and belongs to some start of libvirtd so far.
- `discover_fresh`, `discover_stale`: a pass while libvirtd is up, by the age of the connection.
- `stale_forever`: no later pass replaces a stale connection.
- `discovery_complete_iff`: every pass of every run.
-/
import IoThreadController.Core.Run
import IoThreadController.Model.Discovery

namespace IoThreadController

/-- an active VM with a virtio-scsi controller and a positive vCPU count, whose queries succeed -/
def Hypervisor.Offers (hv : Hypervisor) (uuid : String) (vcpuCount : ℕ) : Prop :=
  (∃ vm ∈ hv.vms, LibvirtConn.listed vm = some uuid) ∧ hv.maxVcpus uuid = some vcpuCount ∧ 0 < vcpuCount

/-- a pass returned every VM on offer -/
def Hypervisor.Complete (hv : Hypervisor) (found : List QemuVm) : Prop :=
  ∀ uuid vcpuCount, hv.Offers uuid vcpuCount → ∃ vm ∈ found, vm.id = uuid ∧ vm.vcpuCount = vcpuCount

namespace Discovery

/-- no connection is cached, or the cached one was opened to the latest start of libvirtd -/
def Current (s : Discovery) : Prop := ∀ conn, s.backend.conn = some conn → conn.session = s.libvirtd.starts

/-- the backend before its first pass -/
def fresh (uri : String) (libvirtd : Libvirtd) : Discovery := ⟨⟨uri, none⟩, libvirtd⟩

/-- a pass during which nothing happens to libvirtd -/
def quietPass (s : Discovery) (hv : Hypervisor) : List QemuVm :=
  (s.backend.discover s.libvirtd s.libvirtd s.libvirtd hv).2

end Discovery

/-- the cached connection has the configured URI and belongs to an earlier or the latest start -/
structure DiscoveryInv (s : Discovery) : Prop where
  uri : ∀ conn, s.backend.conn = some conn → conn.uri = s.backend.libvirtUri
  session : ∀ conn, s.backend.conn = some conn → conn.session ≤ s.libvirtd.starts

theorem Libvirtd.step_starts (d : Libvirtd) (event : LibvirtdEvent) : d.starts ≤ (d.step event).starts := by
  cases event with
  | start =>
    simp only [Libvirtd.step]
    split_ifs <;> simp
  | stop => exact le_rfl
  | restart => exact Nat.le_succ _

theorem Libvirtd.run_starts (d : Libvirtd) (events : List LibvirtdEvent) : d.starts ≤ (d.run events).starts := by
  induction events generalizing d with
  | nil => exact le_rfl
  | cons event events ih => exact (d.step_starts event).trans (ih _)

/-! ## One pass -/

namespace QemuBackend

variable {b : QemuBackend} {d : Libvirtd}

/-- a cached connection is returned whatever its age -/
theorem getOrOpenConn_cached {conn : LibvirtConn} (h : b.conn = some conn) (huri : conn.uri = b.libvirtUri) :
    b.getOrOpenConn d = (b, some conn) := by
  simp [getOrOpenConn, h, Option.filter, huri]

theorem getOrOpenConn_none (h : b.conn = none) :
    b.getOrOpenConn d =
      if d.up then ({ b with conn := some ⟨b.libvirtUri, d.starts⟩ }, some ⟨b.libvirtUri, d.starts⟩) else (b, none) := by
  cases hup : d.up <;> simp [getOrOpenConn, h, LibvirtConn.openUri, hup]

/-- a pass keeps the backend or caches the connection it opened -/
theorem discover_backend (hv : Hypervisor) (listing querying : Libvirtd)
    (huri : ∀ conn, b.conn = some conn → conn.uri = b.libvirtUri) :
    (b.discover d listing querying hv).1 = b ∨
      b.conn = none ∧ (b.discover d listing querying hv).1 = { b with conn := some ⟨b.libvirtUri, d.starts⟩ } := by
  have hback : (b.discover d listing querying hv).1 = (b.getOrOpenConn d).1 := by
    unfold discover
    rcases b.getOrOpenConn d with ⟨b', _ | conn⟩
    · rfl
    · dsimp only
      cases conn.listQemuVms listing hv <;> rfl
  rw [hback]
  cases hc : b.conn with
  | some conn => exact Or.inl (by rw [getOrOpenConn_cached hc (huri conn hc)])
  | none =>
    rw [getOrOpenConn_none hc]
    split_ifs
    · exact Or.inr ⟨rfl, rfl⟩
    · exact Or.inl rfl

/-- over a working connection a pass is complete -/
theorem discover_fresh (hv : Hypervisor) {b' : QemuBackend} {conn : LibvirtConn}
    (hopen : b.getOrOpenConn d = (b', some conn)) (hworks : conn.Works d) :
    hv.Complete (b.discover d d d hv).2 := by
  intro uuid vcpuCount hoffer
  obtain ⟨⟨vm, hvm, hlisted⟩, hcount, hpos⟩ := hoffer
  have hmem : uuid ∈ (hv.vms.filterMap LibvirtConn.listed).insertionSort (· ≤ ·) :=
    (List.mem_insertionSort _).2 (List.mem_filterMap.2 ⟨vm, hvm, hlisted⟩)
  simp only [discover, hopen, LibvirtConn.listQemuVms, if_pos hworks]
  refine ⟨⟨uuid, b'.libvirtUri, (conn.qemuHostPid d hv uuid).getD 0, vcpuCount, conn⟩, ?_, rfl, rfl⟩
  refine List.mem_filterMap.2 ⟨uuid, hmem, ?_⟩
  simp only [record, LibvirtConn.qemuMaxVcpus, if_pos hworks, hcount, if_pos hpos]

/-- over a stale connection it returns nothing -/
theorem discover_stale (hv : Hypervisor) {listing querying : Libvirtd} {b' : QemuBackend} {conn : LibvirtConn}
    (hopen : b.getOrOpenConn d = (b', some conn)) (hstale : ¬ conn.Works listing) :
    (b.discover d listing querying hv).2 = [] := by
  simp only [discover, hopen, LibvirtConn.listQemuVms, if_neg hstale]

end QemuBackend

/-! ## Runs -/

theorem fresh_inv (uri : String) (libvirtd : Libvirtd) : DiscoveryInv (Discovery.fresh uri libvirtd) :=
  ⟨fun conn h => (by cases h), fun conn h => (by cases h)⟩

theorem discoveryStep_inv {s : Discovery} (h : DiscoveryInv s) (ev : DiscoveryEvent) :
    DiscoveryInv (discoveryStep s ev) ∧ (¬ s.Current → ¬ (discoveryStep s ev).Current) := by
  cases ev with
  | libvirtd event =>
    have hle := s.libvirtd.step_starts event
    refine ⟨⟨h.uri, fun conn hc => (h.session conn hc).trans hle⟩, ?_⟩
    intro hstale hcur
    refine hstale fun conn hc => le_antisymm (h.session conn hc) ?_
    have hnow : conn.session = (s.libvirtd.step event).starts := hcur conn hc
    rw [hnow]
    exact hle
  | pass beforeListing beforeQueries hv =>
    have hle : s.libvirtd.starts ≤ ((s.libvirtd.run beforeListing).run beforeQueries).starts :=
      (s.libvirtd.run_starts beforeListing).trans (Libvirtd.run_starts _ beforeQueries)
    rcases QemuBackend.discover_backend (d := s.libvirtd) hv (s.libvirtd.run beforeListing)
      ((s.libvirtd.run beforeListing).run beforeQueries) h.uri with hb | ⟨hnone, hb⟩
    · refine ⟨⟨?_, ?_⟩, ?_⟩
      · simp only [discoveryStep, hb]; exact h.uri
      · simp only [discoveryStep, hb]; exact fun conn hc => (h.session conn hc).trans hle
      · intro hstale hcur
        refine hstale fun conn hc => le_antisymm (h.session conn hc) ?_
        have hnow := hcur conn (by simp only [discoveryStep, hb]; exact hc)
        rw [hnow]
        exact hle
    · refine ⟨⟨?_, ?_⟩, ?_⟩
      · simp only [discoveryStep, hb, Option.some.injEq]
        intro conn hc
        rw [← hc]
      · simp only [discoveryStep, hb, Option.some.injEq]
        intro conn hc
        rw [← hc]
        exact hle
      · intro hstale
        exact absurd (fun conn hc => by rw [hnone] at hc; cases hc) hstale

theorem run_discoveryInv (uri : String) (libvirtd : Libvirtd) (es : List DiscoveryEvent) :
    DiscoveryInv (Core.run discoveryStep (Discovery.fresh uri libvirtd) es) :=
  Core.run_inv DiscoveryInv (fun _ ev h _ => (discoveryStep_inv h ev).1) (fresh_inv uri libvirtd)
    (Core.along_true discoveryStep _ es)

/-- a stale connection is never replaced -/
theorem stale_forever {s : Discovery} (h : DiscoveryInv s) (hstale : ¬ s.Current) (es : List DiscoveryEvent) :
    ¬ (Core.run discoveryStep s es).Current := by
  have hrun : DiscoveryInv (Core.run discoveryStep s es) ∧ ¬ (Core.run discoveryStep s es).Current :=
    Core.run_inv (fun s => DiscoveryInv s ∧ ¬ s.Current)
      (fun s ev h _ => ⟨(discoveryStep_inv h.1 ev).1, (discoveryStep_inv h.1 ev).2 h.2⟩) ⟨h, hstale⟩
      (Core.along_true discoveryStep s es)
  exact hrun.2

/-- a pass while libvirtd is up: complete over a current connection, empty over a stale one -/
theorem quietPass_spec {s : Discovery} (h : DiscoveryInv s) (hup : s.libvirtd.up = true) (hv : Hypervisor) :
    (s.Current → hv.Complete (s.quietPass hv)) ∧ (¬ s.Current → s.quietPass hv = []) := by
  unfold Discovery.quietPass
  cases hc : s.backend.conn with
  | none =>
    have hopen := QemuBackend.getOrOpenConn_none (d := s.libvirtd) hc
    rw [if_pos hup] at hopen
    refine ⟨fun _ => QemuBackend.discover_fresh hv hopen ⟨hup, rfl⟩, fun hstale => ?_⟩
    exact absurd (fun conn hconn => by rw [hc] at hconn; cases hconn) hstale
  | some conn =>
    have hopen := QemuBackend.getOrOpenConn_cached (d := s.libvirtd) hc (h.uri conn hc)
    refine ⟨fun hcur => QemuBackend.discover_fresh hv hopen ⟨hup, hcur conn hc⟩, fun hstale => ?_⟩
    refine QemuBackend.discover_stale hv hopen fun hworks => hstale fun conn' hc' => ?_
    rw [hc, Option.some.injEq] at hc'
    rw [← hc']
    exact hworks.2

/-- every pass of every run, with libvirtd up throughout the pass: it returns every VM on offer exactly when no
connection is cached or the cached one was opened to the latest start of libvirtd (or nothing is on offer). Once that
fails it fails for the rest of the run -/
theorem discovery_complete_iff (uri : String) (libvirtd : Libvirtd) (pre post : List DiscoveryEvent) (hv : Hypervisor) :
    let s := Core.run discoveryStep (Discovery.fresh uri libvirtd) pre
    let later := Core.run discoveryStep (Discovery.fresh uri libvirtd) (pre ++ post)
    (s.libvirtd.up = true →
      (hv.Complete (s.quietPass hv) ↔ s.Current ∨ ¬ ∃ uuid vcpuCount, hv.Offers uuid vcpuCount)) ∧
    (¬ s.Current → ¬ later.Current) := by
  intro s later
  have hinv : DiscoveryInv s := run_discoveryInv uri libvirtd pre
  have hlater : later = Core.run discoveryStep s post := Core.run_append _ _ pre post
  refine ⟨fun hup => ?_, fun hstale => hlater ▸ stale_forever hinv hstale post⟩
  obtain ⟨hcur, hstale⟩ := quietPass_spec hinv hup hv
  constructor
  · intro hcomplete
    by_cases hc : s.Current
    · exact Or.inl hc
    · refine Or.inr fun hoffer => ?_
      obtain ⟨uuid, vcpuCount, hoffer⟩ := hoffer
      obtain ⟨vm, hvm, -⟩ := hcomplete uuid vcpuCount hoffer
      rw [hstale hc] at hvm
      cases hvm
  · intro h
    rcases h with hc | hnone
    · exact hcur hc
    · exact fun uuid vcpuCount hoffer => absurd ⟨uuid, vcpuCount, hoffer⟩ hnone

/-- one active VM with a virtio-scsi controller and four vCPUs -/
def oneVm : Hypervisor where
  vms := [⟨some "1615a59c", some "<controller type='scsi' model='virtio-scsi'>"⟩]
  maxVcpus _ := some 4

theorem oneVm_offers : oneVm.Offers "1615a59c" 4 :=
  ⟨⟨_, List.mem_singleton.2 rfl, by decide +kernel⟩, rfl, by decide⟩

/-- libvirtd restarts after a complete pass: the next pass, with libvirtd up throughout, misses the VM -/
theorem discovery_lost_after_restart :
    let s := Core.run discoveryStep (Discovery.fresh "qemu:///system" ⟨true, 1⟩) [.pass [] [] oneVm, .libvirtd .restart]
    s.libvirtd.up = true ∧ oneVm.Offers "1615a59c" 4 ∧ s.quietPass oneVm = [] ∧ ¬ oneVm.Complete (s.quietPass oneVm) := by
  intro s
  have hnil : s.quietPass oneVm = [] := by decide +kernel
  refine ⟨by decide +kernel, oneVm_offers, hnil, ?_⟩
  intro hcomplete
  obtain ⟨vm, hvm, -⟩ := hcomplete "1615a59c" 4 oneVm_offers
  rw [hnil] at hvm
  cases hvm

/-- libvirtd down at the first pass and started later: the pass after it is complete -/
theorem discovery_complete_iff_started_late :
    let s := Core.run discoveryStep (Discovery.fresh "qemu:///system" ⟨false, 0⟩) [.pass [] [] oneVm, .libvirtd .start]
    oneVm.Complete (s.quietPass oneVm) := by
  intro s
  refine ((discovery_complete_iff "qemu:///system" ⟨false, 0⟩ [.pass [] [] oneVm, .libvirtd .start] [] oneVm).1
    (by decide +kernel)).2 (Or.inl ?_)
  intro conn hc
  have hnone : s.backend.conn = none := by decide +kernel
  change s.backend.conn = some conn at hc
  rw [hnone] at hc
  cases hc

end IoThreadController
