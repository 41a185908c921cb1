/-
What the daemon records of a QEMU VM, and what the VM's QEMU has.

- `tick_pool`: what a tick does with one VM, in terms of its plan, its calls and the answers to them.
- `snapshot_inStep`, `resize_inStep`: what a snapshot and a resize do with the client's cache and QEMU.
- `Recorded`: a record that a refresh has been through says what QEMU has, and so does the cache.
- `tick_recorded`: one tick gets there from anywhere; `Requested.recorded`: requests keep it.
- `recorded_count_real`: so it holds at the end of every calm run that begins with a tick.
-/
import IoThreadController.Fleet.Cooldown
import IoThreadController.Fleet.Guards
import IoThreadController.Fleet.Requests
import IoThreadController.Model.Hosted
import IoThreadController.Qemu.Recovery

namespace IoThreadController

variable {E : ScalingEngine}

/-! ## One VM in a tick -/

namespace Controller

theorem planned_eq (c : Controller E) (env : TickEnv) (vm : VmId) : c.planned env vm =
    ((c.decidedTick env).2.find? fun entry => entry.instanceId = vm).bind fun entry => entry.action.target := rfl

/-- the plan has one entry for a VM, the one that is attempted -/
theorem planned_of_attempt {c : Controller E} {env : TickEnv} {x : Controller E × PlanEntry} (hx : x ∈ c.tickAttempts env) :
    c.planned env x.2.instanceId = x.2.action.target := by
  have hplan : x.2 ∈ (c.decidedTick env).2 := (attempts_inv (mem_tickAttempts hx)).1
  have hnodup : ((c.decidedTick env).2.map PlanEntry.instanceId).Nodup := planOf_nodup _ _
  rw [planned_eq]
  cases hfind : (c.decidedTick env).2.find? fun entry => entry.instanceId = x.2.instanceId with
  | none => simpa using List.find?_eq_none.1 hfind x.2 hplan
  | some entry =>
    have hid : entry.instanceId = x.2.instanceId := by simpa using List.find?_some hfind
    have heq : entry = x.2 := List.inj_on_of_nodup_map hnodup (List.mem_of_find?_eq_some hfind) hplan hid
    rw [heq, Option.bind_some]

/-- the outcome of a VM that is attempted, and the effects of the attempt -/
theorem tickAttempt_effects {c : Controller E} (hk : c.Keyed) {env : TickEnv} {x : Controller E × PlanEntry}
    (hx : x ∈ c.tickAttempts env) {i : Instance} (hrec : c.refreshedRecord env x.2.instanceId = some i) :
    ∃ t o, x.2.action.target = some t ∧ c.tickOutcome env x.2.instanceId = some o ∧
      o = (c.decidedTick env).1.attemptOutcome (env.attempt x.2.instanceId) i x.2.action t ∧
      (x.1.tryEntry env.attempt x.2).2.1 = attemptCalls i.client x.2.instanceId t o ++ [.report x.2.instanceId o] := by
  obtain ⟨-, -, j, t, hj, hxj, ht, -⟩ := tickAttempts_spec hx
  obtain ⟨k, t', hk', ht', -, hout⟩ := tickOutcome_of_attempt hk hx
  obtain rfl : j = i := Option.some.inj (hj.symm.trans hrec)
  obtain rfl : k = j := Option.some.inj (hk'.symm.trans hrec)
  obtain rfl : t' = t := Option.some.inj (ht'.symm.trans ht)
  have hreport : c.wouldReport env k x.2.action t' =
      (c.decidedTick env).1.attemptOutcome (env.attempt x.2.instanceId) k x.2.action t' := by
    unfold wouldReport
    rw [refreshedRecord_id hk hrec]
  refine ⟨t', _, ht, hout, hreport, ?_⟩
  unfold tryEntry
  rw [applyEngineDecision_eq x.1 _ hxj ht, attemptOutcome_apart (tickAttempts_apart hx), hreport]

theorem resizes_iff {vm : VmId} {e : Effect} :
    e.resizes vm = true ↔ ∃ client t origin, e = .setThreadCount client vm t origin := by
  cases e with
  | setThreadCount client id t origin =>
    constructor
    · intro h
      have hid : id = vm := by simpa [Effect.resizes] using h
      exact ⟨client, t, origin, by rw [hid]⟩
    · rintro ⟨_, _, _, heq⟩
      rw [Effect.setThreadCount.injEq] at heq
      simp [Effect.resizes, heq.2.1]
  | _ => simp [Effect.resizes]

/-- a resize of a VM in a tick is made by an attempt -/
theorem resizes_of_tick {c : Controller E} {env : TickEnv} {vm : VmId} {e : Effect} (he : e ∈ (c.tick env).2.1)
    (hresizes : e.resizes vm = true) : ∃ x ∈ c.tickAttempts env, e ∈ (x.1.tryEntry env.attempt x.2).2.1 := by
  rw [tick_effects] at he
  rcases List.mem_append.1 he with hprep | hattempt
  · obtain ⟨client, t, origin, rfl⟩ := resizes_iff.1 hresizes
    obtain ⟨ops, hops⟩ := prepareTick_effects c env
    rw [hops] at hprep
    rcases List.mem_append.1 hprep with hread | hfs
    · have hno : (Effect.setThreadCount client vm t origin).isRead = true := refreshEffects_isRead c env _ hread
      cases hno
    · obtain ⟨op, -, heq⟩ := List.mem_map.1 hfs
      cases heq
  · exact List.mem_flatMap.1 hattempt

/-- a tick leaves a VM's pool alone, with the refreshed count on record; or it calls the client once, within the limits, with
the planned count, and records that count if the client said yes -/
inductive Pool (c : Controller E) (env : TickEnv) (vm : VmId) (i : Instance) (count : ℕ) : Prop where
  | left (hcalls : (c.tick env).2.1.any (Effect.resizes vm) = false) (hcount : count = i.status.threadCount)
  | called (action : ScaleAction) (target : ℕ) (hplanned : c.planned env vm = some target)
      (hne : target ≠ i.status.threadCount) (hcalls : (c.tick env).2.1.any (Effect.resizes vm) = true)
      (hdry : c.cfg.dryRun = false) (hlimits : WithinLimits c.cfg i.status action target (env.attempt vm).checkedAt)
      (hcount : (env.attempt vm).backend = .ok () → count = target)

/-- a VM without a refreshed record is not called -/
theorem not_resized_of_none {c : Controller E} {env : TickEnv} {vm : VmId} (hrec : c.refreshedRecord env vm = none) :
    (c.tick env).2.1.any (Effect.resizes vm) = false := by
  rw [List.any_eq_false]
  intro e he hresizes
  obtain ⟨x, hx, hmem⟩ := resizes_of_tick he hresizes
  obtain ⟨client, t, origin, rfl⟩ := resizes_iff.1 hresizes
  obtain ⟨-, -, i, target, hi, hxi, ht, -⟩ := tickAttempts_spec hx
  unfold tryEntry at hmem
  rw [applyEngineDecision_eq x.1 _ hxi ht] at hmem
  rcases List.mem_append.1 hmem with hcall | hreport
  · obtain ⟨heq, -, -⟩ := mem_attemptCalls hcall
    rw [Effect.setThreadCount.injEq] at heq
    rw [heq.2.1, hi] at hrec
    cases hrec
  · rw [List.mem_singleton] at hreport
    cases hreport

theorem tick_pool {c : Controller E} (hk : c.Keyed) {env : TickEnv} {vm : VmId} {i : Instance}
    (hrec : c.refreshedRecord env vm = some i) : ∃ n u,
      (c.tick env).1.instances vm = some { i with status := { i.status with threadCount := n, cooldownUntil := u } } ∧
        c.Pool env vm i n := by
  rcases c.tick_instances env vm with ⟨hnone, -⟩ | ⟨j, n, u, hj, hnow⟩
  · rw [hrec] at hnone
    cases hnone
  obtain rfl : j = i := Option.some.inj (hj.symm.trans hrec)
  obtain ⟨i', hi', hcount⟩ := tick_threadCount hk hrec
  have hn : n = i'.status.threadCount := by
    rw [Option.some.inj (hi'.symm.trans hnow)]
  rw [← hn] at hcount
  refine ⟨n, u, hnow, ?_⟩
  cases hcalls : (c.tick env).2.1.any (Effect.resizes vm) with
  | false =>
    refine .left hcalls ?_
    rw [hcount]
    split
    · -- a success is a call
      rename_i action _ _ _ hout
      obtain ⟨x, hx, rfl⟩ := attempt_of_tickOutcome hout
      obtain ⟨t, o, ht, hout', -, heffects⟩ := tickAttempt_effects hk hx hrec
      obtain rfl : o = .success action _ _ _ := Option.some.inj (hout'.symm.trans hout)
      have hmem : Effect.setThreadCount j.client x.2.instanceId t .automatic ∈ (c.tick env).2.1 := by
        rw [tick_effects]
        refine List.mem_append_right _ (List.mem_flatMap.2 ⟨x, hx, ?_⟩)
        rw [heffects]
        exact List.mem_append_left _ List.mem_cons_self
      have hno := List.any_eq_false.1 hcalls _ hmem
      simp [Effect.resizes] at hno
    · rfl
  | true =>
    obtain ⟨e, he, hresizes⟩ := List.any_eq_true.1 hcalls
    obtain ⟨x, hx, hmem⟩ := resizes_of_tick he hresizes
    obtain ⟨client, t, origin, rfl⟩ := resizes_iff.1 hresizes
    obtain ⟨-, -, k, t', hk', -, ht', hne⟩ := tickAttempts_spec hx
    obtain ⟨target, o, ht, hout, ho, heffects⟩ := tickAttempt_effects hk hx hk'
    rw [heffects] at hmem
    rcases List.mem_append.1 hmem with hcall | hreport
    · rw [ho] at hcall
      obtain ⟨heq, hguard, hdry⟩ := mem_attemptCalls hcall
      rw [Effect.setThreadCount.injEq] at heq
      obtain ⟨-, rfl, rfl, -⟩ := heq
      obtain rfl : k = j := Option.some.inj (hk'.symm.trans hrec)
      rw [decidedTick_cfg] at hdry
      have hlimits := withinLimits_of_guard hguard
      rw [decidedTick_cfg] at hlimits
      obtain rfl : t' = t := Option.some.inj (ht'.symm.trans ht)
      refine .called x.2.action t' ((planned_of_attempt hx).trans ht) hne hcalls hdry hlimits fun hbackend => ?_
      have hsuccess : o = .success x.2.action k.status.threadCount (ioTotal k.status.perf)
          (env.attempt x.2.instanceId).appliedAt := by
        rw [ho, attemptOutcome, hguard]
        simp [hdry, hbackend]
      rw [hcount, hout, hsuccess]
      simp [ht]
    · rw [List.mem_singleton] at hreport
      cases hreport

end Controller

/-! ## The client and its QEMU -/

/-- the cache is the managed pool of QEMU, and a resize has a device to map -/
structure QemuVmClient.InStep (s : QemuVmClient) : Prop where
  coherent : Coherent s.base.inner s.base.client.qemu
  device : ¬ s.base.inner.Refused
  size : s.base.client.qemu.managed.card < 1024

/-- QEMU knows the metrics command, and a text that comes through says what QEMU has, and a device with queues -/
structure SnapshotEnv.Faithful (env : SnapshotEnv) (q : Qemu) : Prop where
  supported : ∀ error, env.metrics = .error error → ¬ error.Unsupported
  text : ∀ body, env.metrics = .ok body →
    MetricsOf body q ∧ ¬ (isBlank (managedDevice body).1 = true ∨ (managedDevice body).2 = 0)

/-- a snapshot that gets through counts the pool and brings the cache into step, whatever it was before -/
theorem snapshot_inStep {ticksPerSecond : ℕ} {env : SnapshotEnv} {s s' : QemuVmClient} {snapshot : ThreadPoolSnapshot}
    (hfaithful : env.Faithful s.base.client.qemu) (hsize : s.base.client.qemu.managed.card < 1024)
    (h : s.getThreadPoolSnapshot ticksPerSecond env = (s', .ok snapshot)) :
    s'.InStep ∧ s'.base.client.qemu = s.base.client.qemu ∧ s'.vcpuCount = s.vcpuCount ∧
      snapshot.threadCount = s.base.client.qemu.managed.card ∧ snapshot.vcpuCount = s.vcpuCount := by
  cases hmetrics : env.metrics with
  | error error =>
    rw [QemuVmClient.getThreadPoolSnapshot, hmetrics] at h
    dsimp only at h
    rw [if_neg (hfaithful.supported error hmetrics)] at h
    cases h
  | ok body =>
    obtain ⟨hbase, hcount⟩ := snapshot_through hmetrics h
    obtain ⟨htext, hdevice⟩ := hfaithful.text body hmetrics
    have hvcpu : s'.vcpuCount = s.vcpuCount ∧ snapshot.vcpuCount = s.vcpuCount := by
      rcases QemuVmClient.snapshot_cases ticksPerSecond env s with
        ⟨topo, pid, sample, -, heq⟩ | ⟨-, ⟨error, herror, -⟩, -⟩ | ⟨-, -, error, heq⟩
      · rw [heq] at h
        cases h
        exact ⟨rfl, rfl⟩
      · rw [hmetrics] at herror
        cases herror
      · rw [heq] at h
        cases h
    have hqemu : s'.base.client.qemu = s.base.client.qemu := by rw [hbase]
    have hco : Coherent s'.base.inner s.base.client.qemu := by
      rw [hbase]
      exact refresh_coherent htext
    refine ⟨⟨hqemu.symm ▸ hco, ?_, hqemu.symm ▸ hsize⟩, hqemu, hvcpu.1, ?_, hvcpu.2⟩
    · have hmanaged : (s'.base.inner.devicePath, s'.base.inner.vqCount) = managedDevice body := by
        rw [hbase]
        exact new_device body
      rw [← hmanaged] at hdevice
      exact hdevice
    · have hlen : s'.base.inner.iothreads.length = s.base.client.qemu.managed.card := hco.card_eq.symm
      rw [hbase] at hlen
      dsimp only at hlen
      rw [hcount, hlen]
      exact Nat.mod_eq_of_lt (by omega)

/-- a resize without failures reaches its target -/
theorem resize_inStep {s : QemuVmClient} (h : s.InStep) {fault : ℕ → Option QemuError} (hcalm : ∀ n, fault n = none)
    (target : ℕ) (ht : 1 ≤ target ∧ target ≤ 1023) : ∃ s', HostedVm.resize s fault target = (s', .ok ()) ∧ s'.InStep ∧
      s'.base.client.qemu.managed.card = target ∧ s'.base.client.qemu.unmanaged = s.base.client.qemu.unmanaged ∧
      (s.base.client.qemu.managed.card ≠ target →
        Balanced s'.base.client.qemu.mapping s'.base.inner.iothreads s'.base.inner.vqCount) := by
  obtain rfl : fault = fun _ => none := funext hcalm
  have hlen := h.coherent.card_eq
  have hsize := h.size
  obtain ⟨base, hresize, hhealthy, hunmanaged, hresized⟩ := resize_calm ht h.coherent h.device (by omega)
  have hcard : base.client.qemu.managed.card = target := hresized.coherent.card_eq.trans hresized.length
  refine ⟨_, hresize, ⟨hhealthy.coherent, hhealthy.device, by rw [hcard]; omega⟩, hcard, hunmanaged, fun hne => ?_⟩
  have hspread := hresized.spread (by rwa [hlen] at hne)
  have hids : base.inner.iothreads ≠ [] := by
    intro hnil
    have hlength := hresized.length
    rw [hnil, List.length_nil] at hlength
    omega
  dsimp only
  rw [hspread.mapping]
  exact roundRobinVqMapping_balanced hresized.coherent.nodup hids hspread.vqCount

@[simp] theorem resize_vcpuCount (client : QemuVmClient) (fault : ℕ → Option QemuError) (threads : ℕ) :
    (HostedVm.resize client fault threads).1.vcpuCount = client.vcpuCount := rfl

/-! ## The record and the pool -/

theorem applyThreadPoolSnapshot_alive (refreshCgroup : Bool) (env : RefreshEnv) (status : InstanceStatus)
    (snapshot : ThreadPoolSnapshot) : (applyThreadPoolSnapshot refreshCgroup env status snapshot).alive = true := by
  unfold applyThreadPoolSnapshot refreshUtilisation
  dsimp only
  repeat' split
  all_goals rfl

/-- a refreshed record has the count that QEMU has, and the client is in step -/
structure Recorded (vm : VmId) (x : HostedVm E) : Prop where
  vcpus : x.client.vcpuCount ≤ 1023
  keyed : ∀ c, x.daemon = some c → c.Keyed
  positive : ∀ c, x.daemon = some c → 0 < c.cfg.minThreadCount
  fresh : ∀ c, x.daemon = some c → ∀ i, c.instances vm = some i → i.status.alive = false → i.status.vcpuCount = 0
  real : ∀ c, x.daemon = some c → ∀ i, c.instances vm = some i → i.status.alive = true →
    x.client.InStep ∧ i.status.threadCount = x.qemu.managed.card ∧ i.status.vcpuCount = x.client.vcpuCount

/-- nothing goes wrong between the client and QEMU, and nobody else changes QEMU; a snapshot may fail -/
def HostedEvent.Calm (x : HostedVm E) : HostedEvent → Prop
  | .tick t => t.monitor.Faithful x.qemu ∧ x.qemu.managed.card < 1024 ∧ ∀ n, t.fault n = none
  | .sync _ _ _ vcpuCount => vcpuCount ≤ 1023
  | .setThreadCount _ _ _ _ fault | .setAllThreadCounts _ _ _ _ fault => ∀ n, fault n = none
  | .query => True
  | .outside _ => False

/-- the pool after a tick: as it was, or resized within the limits, with the virtqueues dealt evenly over it -/
def PoolTended (c : Controller E) (before : Qemu) (x : HostedVm E) : Prop :=
  x.qemu = before ∨
    c.cfg.dryRun = false ∧ c.cfg.minThreadCount ≤ x.qemu.managed.card ∧ x.qemu.managed.card ≤ c.cfg.maxThreadCount ∧
      x.qemu.unmanaged = before.unmanaged ∧ Balanced x.qemu.mapping x.client.base.inner.iothreads x.client.base.inner.vqCount

section
variable {ticksPerSecond : ℕ} {vm : VmId}

theorem refreshedRecord_none {c : Controller E} {env : TickEnv} (h : c.instances vm = none) :
    c.refreshedRecord env vm = none := by
  simp [Controller.refreshedRecord, h]

theorem act_left (c : Controller E) (ev : Event) {client resized : QemuVmClient}
    (h : (c.step ev).2.1.any (Effect.resizes vm) = false) : (HostedVm.act vm c ev client resized).client = client :=
  if_neg (by rw [h]; simp)

theorem act_called (c : Controller E) (ev : Event) {client resized : QemuVmClient}
    (h : (c.step ev).2.1.any (Effect.resizes vm) = true) : (HostedVm.act vm c ev client resized).client = resized :=
  if_pos h

/-- after a tick the record is gone, if the refresh has not got through -/
theorem act_unrefreshed {c : Controller E} (hk : c.Keyed) (hpos : 0 < c.cfg.minThreadCount) {env : TickEnv}
    (hrec : c.refreshedRecord env vm = none) {client : QemuVmClient} (hv : client.vcpuCount ≤ 1023) (x : HostedVm E)
    (hdaemon : x.daemon = procStep (some c) (.tick env)) (hclient : x.client = client) : Recorded vm x := by
  have hgone : ∀ c', x.daemon = some c' → c' = (c.tick env).1 ∧ c'.instances vm = none := by
    intro c' hc'
    rw [hdaemon, procStep_eq_some] at hc'
    rcases c.tick_instances env vm with ⟨-, hnone⟩ | ⟨i, _, _, hi, -⟩
    · exact ⟨hc'.2.symm, by rw [← hc'.2]; exact hnone⟩
    · rw [hrec] at hi
      cases hi
  refine ⟨by rw [hclient]; exact hv, fun c' hc' => ?_, fun c' hc' => ?_, fun c' hc' i hi => ?_, fun c' hc' i hi => ?_⟩
  · rw [(hgone c' hc').1]
    exact Controller.step_keyed hk (.tick env)
  · rw [(hgone c' hc').1, Controller.tick_cfg]
    exact hpos
  · rw [(hgone c' hc').2] at hi
    cases hi
  · rw [(hgone c' hc').2] at hi
    cases hi

/-- after a tick the refreshed record is real, if it has the count of the pool that the tick leaves -/
theorem act_refreshed {c : Controller E} (hk : c.Keyed) (hpos : 0 < c.cfg.minThreadCount) {env : TickEnv} {i : Instance}
    (hnow : (c.tick env).1.instances vm = some i) (halive : i.status.alive = true) {client : QemuVmClient}
    (hcount : i.status.threadCount = client.base.client.qemu.managed.card) (hvcpu : i.status.vcpuCount = client.vcpuCount)
    (hstep : client.InStep) (hv : client.vcpuCount ≤ 1023) {x : HostedVm E}
    (hdaemon : x.daemon = procStep (some c) (.tick env)) (hclient : x.client = client) : Recorded vm x := by
  have hafter : ∀ c', x.daemon = some c' → c' = (c.tick env).1 ∧ c'.instances vm = some i := by
    intro c' hc'
    rw [hdaemon, procStep_eq_some] at hc'
    exact ⟨hc'.2.symm, by rw [← hc'.2]; exact hnow⟩
  subst hclient
  refine ⟨hv, fun c' hc' => ?_, fun c' hc' => ?_, fun c' hc' j hj hdead => ?_, fun c' hc' j hj _ => ?_⟩
  · rw [(hafter c' hc').1]
    exact Controller.step_keyed hk (.tick env)
  · rw [(hafter c' hc').1, Controller.tick_cfg]
    exact hpos
  · rw [(hafter c' hc').2, Option.some.injEq] at hj
    rw [← hj, halive] at hdead
    cases hdead
  · rw [(hafter c' hc').2, Option.some.injEq] at hj
    subst hj
    exact ⟨hstep, hcount, hvcpu⟩

/-- a refreshed record that is real stays real, whether the tick leaves the pool or resizes it -/
theorem Controller.Pool.recorded {c : Controller E} (hk : c.Keyed) (hpos : 0 < c.cfg.minThreadCount) {env : TickEnv}
    {i : Instance} {n : ℕ} {u : Option Instant} (hpool : c.Pool env vm i n)
    (hnow : (c.tick env).1.instances vm =
      some { i with status := { i.status with threadCount := n, cooldownUntil := u } })
    (halive : i.status.alive = true) {client resized : QemuVmClient}
    (hcount : i.status.threadCount = client.base.client.qemu.managed.card) (hvcpu : i.status.vcpuCount = client.vcpuCount)
    (hstep : client.InStep) (hv : client.vcpuCount ≤ 1023) {fault : ℕ → Option QemuError}
    {answer : Except BackendClientError Unit}
    (hresize : HostedVm.resize client fault ((c.planned env vm).getD 0) = (resized, answer)) (hcalm : ∀ n, fault n = none)
    (hbackend : (env.attempt vm).backend = answer) : Recorded vm (HostedVm.act vm c (.tick env) client resized) ∧
      PoolTended c client.base.client.qemu (HostedVm.act vm c (.tick env) client resized) := by
  cases hpool with
  | left hcalls hn =>
    have hclient : (HostedVm.act vm c (.tick env) client resized).client = client := act_left c (.tick env) hcalls
    refine ⟨act_refreshed hk hpos hnow halive (hn.trans hcount) hvcpu hstep hv rfl hclient, Or.inl ?_⟩
    rw [HostedVm.qemu, hclient]
  | called action target hplanned hne hcalls hdry hlimits hn =>
    have hmin := hlimits.min_le
    have hvcpus := hlimits.le_vcpu
    obtain ⟨s', hresized, hstep', hcard, hunmanaged, hbalanced⟩ := resize_inStep hstep hcalm target
      ⟨by omega, by omega⟩
    rw [hplanned, Option.getD_some] at hresize
    obtain ⟨rfl, rfl⟩ := Prod.mk.inj (hresize.symm.trans hresized)
    have hclient : (HostedVm.act vm c (.tick env) client resized).client = resized := act_called c (.tick env) hcalls
    have hresizedVcpu : resized.vcpuCount = client.vcpuCount := by
      rw [← resize_vcpuCount client fault target, hresize]
    refine ⟨act_refreshed hk hpos hnow halive ((hn hbackend).trans hcard.symm) (hvcpu.trans hresizedVcpu.symm) hstep'
      (hresizedVcpu.symm ▸ hv) rfl hclient, Or.inr ?_⟩
    rw [HostedVm.qemu, hclient, hcard]
    refine ⟨hdry, hmin, hlimits.le_max, hunmanaged, hbalanced fun heq => hne ?_⟩
    rw [hcount, heq]

/-- a calm tick brings record, cache and pool together, whatever they were before -/
theorem tick_recorded (ticksPerSecond : ℕ) (vm : VmId) {c : Controller E} (hk : c.Keyed)
    (hpos : 0 < c.cfg.minThreadCount) {client : QemuVmClient} (hv : client.vcpuCount ≤ 1023) {t : HostedTick} (hfaithful : t.monitor.Faithful client.base.client.qemu)
    (hsize : client.base.client.qemu.managed.card < 1024) (hcalm : ∀ n, t.fault n = none) :
    Recorded vm (HostedVm.tick ticksPerSecond vm c client t) ∧
      PoolTended c client.base.client.qemu (HostedVm.tick ticksPerSecond vm c client t) := by
  unfold HostedVm.tick
  cases hi : c.instances vm with
  | none =>
    exact ⟨act_unrefreshed hk hpos (refreshedRecord_none hi) hv _ rfl rfl, Or.inl rfl⟩
  | some i =>
    dsimp only
    rcases hsnapshot : client.getThreadPoolSnapshot ticksPerSecond t.monitor with ⟨s, answer⟩
    dsimp only
    generalize hplanned : (c.planned (t.env.withSnapshot vm answer) vm).getD 0 = target
    rcases hresize : HostedVm.resize s t.fault target with ⟨resized, result⟩
    dsimp only
    -- the plan does not depend on the answer to the resize
    have hplan : c.planned ((t.env.withSnapshot vm answer).withBackend vm result) vm =
        c.planned (t.env.withSnapshot vm answer) vm := rfl
    have hbackend : (((t.env.withSnapshot vm answer).withBackend vm result).attempt vm).backend = result := by
      simp [TickEnv.withBackend]
    have hanswer : (((t.env.withSnapshot vm answer).withBackend vm result).refresh vm).snapshot = answer := by
      simp [TickEnv.withBackend, TickEnv.withSnapshot]
    generalize (t.env.withSnapshot vm answer).withBackend vm result = env at hplan hbackend hanswer
    have hid : i.id = vm := hk vm i hi
    cases answer with
    | error error =>
      have hrec : c.refreshedRecord env vm = none := by
        have hrefresh : c.refreshOne env i = _ := i.refreshState_error c.cfg.refreshCgroupOnEachRead (hid ▸ hanswer)
        simp [Controller.refreshedRecord, hi, hrefresh]
      have hs : s.base.client.qemu = client.base.client.qemu ∧ s.vcpuCount = client.vcpuCount := by
        rcases QemuVmClient.snapshot_cases ticksPerSecond t.monitor client with
          ⟨topo, pid, sample, -, heq⟩ | ⟨-, -, heq⟩ | ⟨-, -, error, heq⟩
        all_goals
          rw [hsnapshot] at heq
          cases heq
        exact ⟨rfl, rfl⟩
      have hclient : (HostedVm.act vm c (.tick env) s resized).client = s :=
        act_left c (.tick env) (Controller.not_resized_of_none hrec)
      refine ⟨act_unrefreshed hk hpos hrec (hs.2.symm ▸ hv) _ rfl hclient, Or.inl ?_⟩
      rw [HostedVm.qemu, hclient, hs.1]
    | ok snapshot =>
      obtain ⟨hstep, hqemu, hvcpu, hcount, hsnap⟩ := snapshot_inStep hfaithful hsize hsnapshot
      obtain ⟨j, hrec, halive, hjcount, hjvcpu⟩ : ∃ j, c.refreshedRecord env vm = some j ∧ j.status.alive = true ∧
          j.status.threadCount = client.base.client.qemu.managed.card ∧ j.status.vcpuCount = client.vcpuCount := by
        have hrefresh : c.refreshOne env i = _ := i.refreshState_ok c.cfg.refreshCgroupOnEachRead (hid ▸ hanswer)
        refine ⟨(c.refreshOne env i).1, by simp [Controller.refreshedRecord, hi, hrefresh], ?_⟩
        rw [hrefresh]
        exact ⟨applyThreadPoolSnapshot_alive _ _ _ _, (applyThreadPoolSnapshot_threadCount ..).trans hcount,
          (applyThreadPoolSnapshot_vcpuCount ..).trans hsnap⟩
      obtain ⟨n, u, hnow, hpool⟩ := Controller.tick_pool hk hrec
      rw [← hqemu] at hjcount ⊢
      rw [← hvcpu] at hjvcpu hv
      exact hpool.recorded hk hpos hnow halive hjcount hjvcpu hstep hv (by rw [hplan, hplanned]; exact hresize) hcalm hbackend

/-! ## Manual requests -/

/-- a request leaves a VM alone; or it calls the client, and records the count if the client said yes -/
inductive Requested (vm : VmId) (c : Controller E) (ev : Event) (threads : ℕ) (answer : Except BackendClientError Unit) :
    Prop where
  | left (hcalls : (c.step ev).2.1.any (Effect.resizes vm) = false)
      (hsame : (c.step ev).1.instances vm = c.instances vm)
  | called (i : Instance) (sticky : Bool) (hi : c.instances vm = some i)
      (hcalls : (c.step ev).2.1.any (Effect.resizes vm) = true) (hpos : 0 < threads) (hle : threads ≤ i.status.vcpuCount)
      (hnow : answer = .ok () → (c.step ev).1.instances vm = some (Controller.resized i threads sticky))

/-- a request calls the client of its own VM, and only if the count is one that the VM can have -/
theorem handleSetThreadCount_resizes (c : Controller E) (id : VmId) (threads : ℕ) (sticky : Bool)
    (backend : Except BackendClientError Unit) :
    (c.handleSetThreadCount id threads sticky backend).2.1.any (Effect.resizes vm) =
      decide (vm = id ∧ c.takes vm threads (.ok ()) = true) := by
  rw [Bool.eq_iff_iff, decide_eq_true_iff, Controller.takes_iff]
  unfold Controller.handleSetThreadCount
  cases hi : c.instances id with
  | none =>
    simp only [List.any_nil, Bool.false_eq_true, false_iff]
    rintro ⟨rfl, i, hi', -⟩
    rw [hi] at hi'
    cases hi'
  | some i =>
    dsimp only
    split_ifs with hzero hmany
    · simp [hzero]
    · simp only [List.any_nil, Bool.false_eq_true, false_iff]
      rintro ⟨rfl, j, hj, -, hle, -⟩
      obtain rfl : i = j := Option.some.inj (hi.symm.trans hj)
      omega
    · have hcall : ([Effect.setThreadCount i.client id threads .manual].any (Effect.resizes vm) = true) ↔ vm = id := by
        simp [Effect.resizes, eq_comm]
      have hfits : vm = id ↔ vm = id ∧ ∃ i, c.instances vm = some i ∧ 0 < threads ∧ threads ≤ i.status.vcpuCount ∧
          (.ok () : Except BackendClientError Unit) = .ok () := by
        constructor
        · rintro rfl
          exact ⟨rfl, i, hi, by omega, by omega, rfl⟩
        · exact And.left
      rw [← hfits, ← hcall]
      cases backend with
      | error e => rfl
      | ok u => rfl

theorem setEach_resizes (c : Controller E) (threads : ℕ) (sticky : Bool) (backend : VmId → Except BackendClientError Unit)
    (ids : List VmId) : (c.setEach threads sticky backend ids).2.1.any (Effect.resizes vm) =
      decide (vm ∈ ids ∧ c.takes vm threads (.ok ()) = true) := by
  induction ids generalizing c with
  | nil => simp [Controller.setEach]
  | cons id ids ih =>
    have heffects : (c.setEach threads sticky backend (id :: ids)).2.1 =
        (c.handleSetThreadCount id threads sticky (backend id)).2.1 ++
          ((c.handleSetThreadCount id threads sticky (backend id)).1.setEach threads sticky backend ids).2.1 := by
      rw [Controller.setEach]
      dsimp only
      split <;> rfl
    rw [heffects, List.any_append, ih, Controller.takes_after, handleSetThreadCount_resizes]
    simp only [List.mem_cons, or_and_right, Bool.decide_or]

theorem requested_of_takes {c : Controller E} {ev : Event} {threads : ℕ} (sticky : Bool)
    {answer : Except BackendClientError Unit} {named : Prop} [Decidable named]
    (hcalls : (c.step ev).2.1.any (Effect.resizes vm) = decide (named ∧ c.takes vm threads (.ok ()) = true))
    (hnow : (c.step ev).1.instances vm = if named ∧ c.takes vm threads answer = true then
      (c.instances vm).map fun i => Controller.resized i threads sticky else c.instances vm) :
    Requested vm c ev threads answer := by
  by_cases h : named ∧ c.takes vm threads (.ok ()) = true
  · obtain ⟨i, hi, hpos, hle, -⟩ := Controller.takes_iff.1 h.2
    refine .called i sticky hi (by rw [hcalls, decide_eq_true h]) hpos hle ?_
    rintro rfl
    rw [hnow, if_pos h, hi, Option.map_some]
  · refine .left (by rw [hcalls, decide_eq_false h]) ?_
    rw [hnow, if_neg fun hnamed => h ⟨hnamed.1, ?_⟩]
    -- the answer of the client does not decide whether it is asked
    obtain ⟨i, hi, hpos, hle, -⟩ := Controller.takes_iff.1 hnamed.2
    exact Controller.takes_iff.2 ⟨i, hi, hpos, hle, rfl⟩

theorem setThreadCount_requested (c : Controller E) (id : VmId) (threads : ℕ) (sticky : Bool)
    (answer backend : Except BackendClientError Unit) :
    Requested vm c (.setThreadCount id threads sticky (if id = vm then answer else backend)) threads answer := by
  refine requested_of_takes sticky (handleSetThreadCount_resizes c id threads sticky _) ?_
  have hstep : (c.step (.setThreadCount id threads sticky (if id = vm then answer else backend))).1.instances vm = _ :=
    c.handleSetThreadCount_instances id threads sticky _ vm
  rw [hstep]
  by_cases hid : vm = id
  · subst hid
    rw [if_pos rfl]
  · rw [if_neg fun h => hid h.1, if_neg fun h => hid h.1]

theorem setAllThreadCounts_requested (c : Controller E) (threads : ℕ) (sticky : Bool)
    (answer : Except BackendClientError Unit) (backend : VmId → Except BackendClientError Unit) (order : List VmId) :
    Requested vm c (.setAllThreadCounts threads sticky (Function.update backend vm answer) order) threads answer := by
  refine requested_of_takes sticky (setEach_resizes c threads sticky _ (order.insertionSort (· ≤ ·))) ?_
  have hstep : (c.step (.setAllThreadCounts threads sticky (Function.update backend vm answer) order)).1.instances vm = _ :=
    c.setEach_instances threads sticky _ (order.insertionSort (· ≤ ·)) vm
  rw [hstep, Function.update_self]

/-- a request that is carried out without failures keeps record, cache and pool together -/
theorem Requested.recorded {c : Controller E} {ev : Event} {threads : ℕ} {client resized : QemuVmClient}
    {answer : Except BackendClientError Unit} (hrequested : Requested vm c ev threads answer) {fault : ℕ → Option QemuError}
    (hcalm : ∀ n, fault n = none) (hresize : HostedVm.resize client fault threads = (resized, answer))
    (h : Recorded vm ⟨some c, client⟩) : Recorded vm (HostedVm.act vm c ev client resized) := by
  have hkeyed := Controller.step_keyed (h.keyed c rfl) ev
  have hpos : 0 < (c.step ev).1.cfg.minThreadCount := by
    rw [step_cfg]
    exact h.positive c rfl
  have hafter : ∀ c', (HostedVm.act vm c ev client resized).daemon = some c' → c' = (c.step ev).1 := by
    intro c' hc'
    exact (procStep_eq_some.1 hc').2.symm
  cases hrequested with
  | left hcalls hsame =>
    have hclient : (HostedVm.act vm c ev client resized).client = client := act_left c ev hcalls
    refine ⟨by rw [hclient]; exact h.vcpus, fun c' hc' => ?_, fun c' hc' => ?_, fun c' hc' i hi => ?_, fun c' hc' i hi => ?_⟩
    · exact hafter c' hc' ▸ hkeyed
    · exact hafter c' hc' ▸ hpos
    · rw [hafter c' hc', hsame] at hi
      exact h.fresh c rfl i hi
    · rw [hafter c' hc', hsame] at hi
      rw [HostedVm.qemu, hclient]
      exact h.real c rfl i hi
  | called i sticky hi hcalls hthreads hle hnow =>
    have hclient : (HostedVm.act vm c ev client resized).client = resized := act_called c ev hcalls
    have halive : i.status.alive = true := by
      by_contra hdead
      have hzero := h.fresh c rfl i hi (by simpa using hdead)
      omega
    obtain ⟨hstep, -, hvcpu⟩ := h.real c rfl i hi halive
    have hv := h.vcpus
    dsimp only at hstep hvcpu hv
    obtain ⟨s', hs', hstep', hcard, -⟩ := resize_inStep hstep hcalm threads ⟨by omega, by omega⟩
    obtain ⟨rfl, rfl⟩ := Prod.mk.inj (hresize.symm.trans hs')
    have hresizedVcpu : resized.vcpuCount = client.vcpuCount := by
      rw [← resize_vcpuCount client fault threads, hresize]
    refine ⟨by rw [hclient, hresizedVcpu]; exact hv, fun c' hc' => ?_, fun c' hc' => ?_, fun c' hc' j hj hdead => ?_,
      fun c' hc' j hj _ => ?_⟩
    · exact hafter c' hc' ▸ hkeyed
    · exact hafter c' hc' ▸ hpos
    · rw [hafter c' hc', hnow rfl, Option.some.injEq] at hj
      rw [← hj, Controller.resized, halive] at hdead
      cases hdead
    · rw [hafter c' hc', hnow rfl, Option.some.injEq] at hj
      subst hj
      rw [HostedVm.qemu, hclient]
      exact ⟨hstep', hcard.symm, hvcpu.trans hresizedVcpu.symm⟩

/-! ## Runs -/

/-- a discovery keeps a tracked VM's record and client, and gives an untracked one a record that no refresh has touched -/
theorem sync_recorded {c : Controller E} {client : QemuVmClient} (h : Recorded vm ⟨some c, client⟩)
    (discovered : List Discovered) (order : List VmId) {extra vcpuCount : ℕ} (hv : vcpuCount ≤ 1023) :
    Recorded vm (HostedVm.step ticksPerSecond vm ⟨some c, client⟩ (.sync discovered order extra vcpuCount)) := by
  have hkeyed : (c.syncInstances discovered order).1.Keyed := Controller.step_keyed (h.keyed c rfl) (.sync discovered order)
  have hpos : 0 < (c.syncInstances discovered order).1.cfg.minThreadCount := by
    rw [(c.syncInstances_frame discovered order).1]
    exact h.positive c rfl
  unfold HostedVm.step
  dsimp only
  refine ⟨?_, ?_, ?_, ?_, ?_⟩
  · dsimp only
    split_ifs
    · exact hv
    · exact h.vcpus
  · rintro c' hc'
    cases hc'
    exact hkeyed
  · rintro c' hc'
    cases hc'
    exact hpos
  · rintro c' hc' i hi hdead
    cases hc'
    rcases Controller.syncInstances_some hi with hold | ⟨-, d, -, -, rfl⟩
    · exact h.fresh c rfl i hold hdead
    · rfl
  · rintro c' hc' i hi halive
    cases hc'
    rcases Controller.syncInstances_some hi with hold | ⟨-, d, -, -, rfl⟩
    · have hkept : ((c.instances vm).isNone && ((c.syncInstances discovered order).1.instances vm).isSome) = false := by
        rw [hold]
        rfl
      rw [HostedVm.qemu, hkept]
      exact h.real c rfl i hold halive
    · cases halive

theorem step_recorded (ticksPerSecond : ℕ) {x : HostedVm E} {e : HostedEvent} (h : Recorded vm x) (hcalm : e.Calm x) :
    Recorded vm (HostedVm.step ticksPerSecond vm x e) ∧
      ∀ c t, x.daemon = some c → e = .tick t → PoolTended c x.qemu (HostedVm.step ticksPerSecond vm x e) := by
  obtain ⟨daemon, client⟩ := x
  cases daemon with
  | none =>
    refine ⟨?_, by simp⟩
    cases e with
    | outside qemu => exact absurd hcalm id
    | _ => exact h
  | some c =>
    cases e with
    | tick t =>
      obtain ⟨hfaithful, hsize, hfault⟩ := hcalm
      obtain ⟨hrecorded, hkept⟩ := tick_recorded ticksPerSecond vm (h.keyed c rfl) (h.positive c rfl)
        h.vcpus hfaithful hsize hfault
      refine ⟨hrecorded, ?_⟩
      rintro c' t' hc' ht
      cases hc'
      exact hkept
    | sync discovered order extra vcpuCount => exact ⟨sync_recorded h discovered order hcalm, by simp⟩
    | setThreadCount id threads sticky backend fault =>
      refine ⟨?_, by simp⟩
      exact (setThreadCount_requested c id threads sticky _ backend).recorded hcalm rfl h
    | setAllThreadCounts threads sticky backend order fault =>
      refine ⟨?_, by simp⟩
      exact (setAllThreadCounts_requested c threads sticky _ backend order).recorded hcalm rfl h
    | query => exact ⟨h, by simp⟩
    | outside qemu => exact absurd hcalm id

end

/-- whatever the record, the cache and the pool are when a calm run begins with a tick: at its end the record of the VM, once
a refresh has got through, has the count of QEMU's managed IOThreads, and the cache has their names; and every tick of the
run leaves the pool as it was, or within the limits and with the virtqueues dealt evenly over it -/
theorem recorded_count_real (ticksPerSecond : ℕ) (vm : VmId) (c : Controller E) (hk : c.Keyed)
    (hpos : 0 < c.cfg.minThreadCount) (client : QemuVmClient) (hv : client.vcpuCount ≤ 1023) (t : HostedTick)
    (es : List HostedEvent) (hcalm : Core.Along (HostedVm.step ticksPerSecond vm) (fun x e => e.Calm x) ⟨some c, client⟩
      (.tick t :: es)) :
    Core.Along (HostedVm.step ticksPerSecond vm) (fun x e => ∀ c' t', x.daemon = some c' → e = .tick t' →
        PoolTended c' x.qemu (HostedVm.step ticksPerSecond vm x e)) ⟨some c, client⟩ (.tick t :: es) ∧
      let x := Core.run (HostedVm.step ticksPerSecond vm) ⟨some c, client⟩ (.tick t :: es)
      ∀ c' i, x.daemon = some c' → c'.instances vm = some i → i.status.alive = true →
        i.status.threadCount = x.qemu.managed.card ∧ x.qemu.managed = x.client.base.inner.iothreads.toFinset := by
  obtain ⟨⟨hfaithful, hsize, hfault⟩, hrest⟩ := hcalm
  obtain ⟨hrecorded, hkept⟩ := tick_recorded ticksPerSecond vm hk hpos hv hfaithful hsize hfault
  have hinv : Core.Along (HostedVm.step ticksPerSecond vm) _ _ es := Core.along_of_inv (Recorded vm)
    (fun x e hx he => (step_recorded ticksPerSecond hx he).1) (fun x e hx he => (step_recorded ticksPerSecond hx he).2)
    hrecorded hrest
  have hend := Core.run_inv (Recorded vm) (fun x e hx he => (step_recorded ticksPerSecond hx he).1) hrecorded hrest
  refine ⟨⟨?_, hinv⟩, fun c' i hc' hi halive => ?_⟩
  · rintro c' t' hc' ht
    cases hc'
    exact hkept
  · obtain ⟨hstep, hcount, -⟩ := hend.real c' hc' i hi halive
    exact ⟨hcount, hstep.coherent.managed_eq⟩

/-- a tick that reaches one VM and its monitor -/
def bootTick : HostedTick where
  env := TickEnv.single "vm" 0 0 (.error "timeout")
  monitor := bootEnv

/-- the VM has one managed IOThread, the engine wants three, and the operator then two -/
theorem recorded_count_real_stray :
    let engine : ScalingEngine := .stateless fun _ => .up 3
    let c : Controller engine := ((Controller.new {} () { managedVms := {"vm"} } : Controller engine).step
      (.sync [⟨"vm", 1⟩] ["vm"])).1
    let x := Core.run (HostedVm.step 100 "vm") ⟨some c, strayClient⟩
      [.tick bootTick, .setThreadCount "vm" 2 true (.ok ()) fun _ => none, .query]
    (HostedVm.step 100 "vm" ⟨some c, strayClient⟩ (.tick bootTick)).qemu.managed.card = 3 ∧
      ∃ c' i, x.daemon = some c' ∧ c'.instances "vm" = some i ∧ i.status.threadCount = 2 ∧ x.qemu.managed.card = 2 := by
  intro engine c x
  have hrecord : (x.daemon.bind fun c' => c'.instances "vm").map (fun i => (i.status.alive, i.status.threadCount)) =
      some (true, 2) := by decide +kernel
  obtain ⟨i, hi, hstatus⟩ := Option.map_eq_some_iff.1 hrecord
  obtain ⟨c', hc', hi⟩ := Option.bind_eq_some_iff.1 hi
  obtain ⟨halive, hcount⟩ := Prod.mk.inj hstatus
  have hmetrics : bootEnv.metrics = .ok bootMetrics := by decide +kernel
  have hfaithful : bootEnv.Faithful strayClient.base.client.qemu := by
    refine ⟨fun error herror => ?_, fun body hbody => ?_⟩
    · rw [hmetrics] at herror
      cases herror
    · obtain rfl : bootMetrics = body := Except.ok.inj (hmetrics.symm.trans hbody)
      exact ⟨bootMetrics_of, by decide +kernel⟩
  have hkeyed : c.Keyed := Controller.step_keyed (by simp [Controller.Keyed, Controller.new]) _
  have hsize : strayClient.base.client.qemu.managed.card < 1024 := by decide +kernel
  obtain ⟨-, hreal⟩ := recorded_count_real 100 "vm" c hkeyed (by decide +kernel) strayClient (by decide) bootTick
    [.setThreadCount "vm" 2 true (.ok ()) fun _ => none, .query]
    ⟨⟨hfaithful, hsize, fun _ => rfl⟩, fun _ => rfl, trivial, trivial⟩
  exact ⟨by decide +kernel, c', i, hc', hi, hcount, (hreal c' i hc' hi halive).1.symm.trans hcount⟩

end IoThreadController
