/-
Snapshots of one VM over the lifetime of its client.

Whether a snapshot gets through to the cache depends on its environment only (`SnapshotEnv.reading`), so the baseline that
utilisation is computed against is a function of the events of the run.

- `snapshot_cases`: the three ways in which a snapshot ends.
- `setThreadCount_ends`: no resize runs out of turns.
- `lastSample_run`: the baseline is the sample of the latest snapshot that got through; resizes, the operator's commands,
  changes of QEMU, failed snapshots and fallback snapshots leave it alone.
- `warnings_run`: the warning about unsupported metrics is logged at most once.
- `snapshot_accounts`: what a snapshot returns after any run.
-/
import IoThreadController.Core.Run
import IoThreadController.Model.Session
import IoThreadController.Qemu.Rollback
import IoThreadController.Qemu.Utilisation

namespace IoThreadController

open IoThreadController.Core (run run_latest run_inv along_true mean_mem_unit)

/-! ## One snapshot -/

/-- what a snapshot puts into the cache, if it gets that far: the topology, the process id and the counters -/
def SnapshotEnv.reading (env : SnapshotEnv) : Option (QemuTopology × ℤ × QemuCpuSample) :=
  match env.metrics with
  | .error _ => none
  | .ok body =>
    let topo := QemuTopology.new body
    if topo.iothreads = [] ∨ topo.devicePath = "" then none
    else (env.proc.sample env.now topo).toOption.map fun found => (topo, found)

/-- QEMU answers that it does not know the command for its metrics -/
def SnapshotEnv.Unsupported (env : SnapshotEnv) : Prop := ∃ error, env.metrics = .error error ∧ error.Unsupported

instance (env : SnapshotEnv) : Decidable env.Unsupported :=
  match h : env.metrics with
  | .ok _ => isFalse fun ⟨_, herror, _⟩ => by simp [h] at herror
  | .error error => decidable_of_iff error.Unsupported
      ⟨fun hu => ⟨error, h, hu⟩, fun ⟨_, herror, hu⟩ => by rw [h] at herror; cases herror; exact hu⟩

theorem SnapshotEnv.not_unsupported_of_reading (env : SnapshotEnv) {reading : QemuTopology × ℤ × QemuCpuSample}
    (h : env.reading = some reading) : ¬ env.Unsupported := by
  rintro ⟨error, herror, -⟩
  rw [SnapshotEnv.reading, herror] at h
  cases h

namespace QemuVmClient

variable {ticksPerSecond : ℕ} {env : SnapshotEnv} {s : QemuVmClient}

/-- a snapshot refreshes the cache, or falls back to it and warns, or fails and changes nothing -/
theorem snapshot_cases (ticksPerSecond : ℕ) (env : SnapshotEnv) (s : QemuVmClient) :
    (∃ topo pid sample, env.reading = some (topo, pid, sample) ∧
        s.getThreadPoolSnapshot ticksPerSecond env =
          ((s.refresh ticksPerSecond env topo pid sample).1, .ok (s.refresh ticksPerSecond env topo pid sample).2)) ∨
      (env.reading = none ∧ env.Unsupported ∧
        s.getThreadPoolSnapshot ticksPerSecond env =
          ({ s with
              warnedUnsupportedMetrics := true
              warnings := if s.warnedUnsupportedMetrics then s.warnings else s.warnings + 1 },
            .ok (s.snapshotFromCachedTopology env))) ∨
      (env.reading = none ∧ ¬ env.Unsupported ∧
        ∃ error, s.getThreadPoolSnapshot ticksPerSecond env = (s, .error error)) := by
  unfold getThreadPoolSnapshot SnapshotEnv.reading SnapshotEnv.Unsupported
  cases hmetrics : env.metrics with
  | error error =>
    dsimp only
    by_cases hu : error.Unsupported
    · rw [if_pos hu]
      exact Or.inr (Or.inl ⟨rfl, ⟨error, rfl, hu⟩, rfl⟩)
    · rw [if_neg hu]
      refine Or.inr (Or.inr ⟨rfl, ?_, _, rfl⟩)
      rintro ⟨error', herror, hu'⟩
      cases herror
      exact hu hu'
  | ok body =>
    have hsupported : ¬ ∃ error, (Except.ok body : Except QemuError String) = .error error ∧ error.Unsupported := by
      rintro ⟨error, herror, -⟩
      cases herror
    dsimp only
    by_cases hincomplete : (QemuTopology.new body).iothreads = [] ∨ (QemuTopology.new body).devicePath = ""
    · rw [if_pos hincomplete, if_pos hincomplete]
      exact Or.inr (Or.inr ⟨rfl, hsupported, _, rfl⟩)
    · rw [if_neg hincomplete, if_neg hincomplete]
      rcases env.proc.sample env.now (QemuTopology.new body) with error | ⟨pid, sample⟩
      · exact Or.inr (Or.inr ⟨rfl, hsupported, error, rfl⟩)
      · exact Or.inl ⟨_, pid, sample, rfl, rfl⟩

end QemuVmClient

/-! ## Resizes end -/

namespace QemuInstanceClient

/-- the growing loop takes at most one turn for each missing id -/
theorem scaleUpTo_ends {target : ℕ} (ht : target < 2 ^ 32) {s : QemuInstanceClient}
    (hlen : s.inner.iothreads.length < 2 ^ 32) :
    ∃ s' r, (∀ fuel, target - s.inner.iothreads.length < fuel → s.scaleUpTo target fuel = some (s', r)) ∧
      s'.inner.iothreads.length < 2 ^ 32 := by
  induction hd : target - s.inner.iothreads.length generalizing s with
  | zero =>
    refine ⟨s, .ok (), fun fuel hfuel => ?_, hlen⟩
    obtain ⟨fuel, rfl⟩ := Nat.exists_eq_succ_of_ne_zero hfuel.ne'
    rw [scaleUpTo, if_pos (by rw [threadCount_eq hlen]; omega)]
  | succ d ih =>
    have hturn : ¬ target ≤ s.threadCount := by
      rw [threadCount_eq hlen]
      omega
    rcases s.scaleUp_length with ⟨s1, error, hstep, hinner⟩ | ⟨s1, hstep, hlen1⟩
    · refine ⟨s1, .error error, fun fuel hfuel => ?_, by rwa [hinner]⟩
      obtain ⟨fuel, rfl⟩ := Nat.exists_eq_succ_of_ne_zero (Nat.ne_zero_of_lt hfuel)
      rw [scaleUpTo, if_neg hturn, hstep]
    · obtain ⟨s', r, hrun, hlen'⟩ := ih (s := s1) (by omega) (by omega)
      refine ⟨s', r, fun fuel hfuel => ?_, hlen'⟩
      obtain ⟨fuel, rfl⟩ := Nat.exists_eq_succ_of_ne_zero (Nat.ne_zero_of_lt hfuel)
      have hmoved : s1.threadCount ≠ s.threadCount := by
        rw [threadCount_eq hlen, threadCount_eq (by omega)]
        omega
      rw [scaleUpTo, if_neg hturn, hstep]
      dsimp only
      rw [if_neg hmoved, hrun fuel (by omega)]

/-- the shrinking loop takes at most one turn for each id too many -/
theorem scaleDownTo_ends (target : ℕ) {s : QemuInstanceClient} (hlen : s.inner.iothreads.length < 2 ^ 32) :
    ∃ s' r, ∀ fuel, s.inner.iothreads.length - target < fuel → s.scaleDownTo target fuel = some (s', r) := by
  induction hd : s.inner.iothreads.length - target generalizing s with
  | zero =>
    refine ⟨s, .ok (), fun fuel hfuel => ?_⟩
    obtain ⟨fuel, rfl⟩ := Nat.exists_eq_succ_of_ne_zero hfuel.ne'
    rw [scaleDownTo, if_pos (by rw [threadCount_eq hlen]; omega)]
  | succ d ih =>
    have hturn : ¬ s.threadCount ≤ target := by
      rw [threadCount_eq hlen]
      omega
    by_cases hone : s.inner.iothreads.length ≤ 1
    · -- the last IOThread stays
      have hrefused : ∃ error, s.scaleDown = (s, .error error) := ⟨_, if_pos hone⟩
      obtain ⟨error, hrefused⟩ := hrefused
      refine ⟨s, .error error, fun fuel hfuel => ?_⟩
      obtain ⟨fuel, rfl⟩ := Nat.exists_eq_succ_of_ne_zero (Nat.ne_zero_of_lt hfuel)
      rw [scaleDownTo, if_neg hturn, hrefused]
    · rcases s.scaleDown_length (by omega) with ⟨s1, error, hstep, hinner⟩ | ⟨s1, hstep, hlen1⟩
      · refine ⟨s1, .error error, fun fuel hfuel => ?_⟩
        obtain ⟨fuel, rfl⟩ := Nat.exists_eq_succ_of_ne_zero (Nat.ne_zero_of_lt hfuel)
        rw [scaleDownTo, if_neg hturn, hstep]
      · obtain ⟨s', r, hrun⟩ := ih (s := s1) (by omega) (by omega)
        refine ⟨s', r, fun fuel hfuel => ?_⟩
        obtain ⟨fuel, rfl⟩ := Nat.exists_eq_succ_of_ne_zero (Nat.ne_zero_of_lt hfuel)
        have hmoved : s1.threadCount ≠ s.threadCount := by
          rw [threadCount_eq hlen, threadCount_eq (by omega)]
          omega
        rw [scaleDownTo, if_neg hturn, hstep]
        dsimp only
        rw [if_neg hmoved, hrun fuel (by omega)]

/-- no resize to a `u32` count runs out of turns -/
theorem setThreadCount_ends {target : ℕ} (ht : target < 2 ^ 32) {s : QemuInstanceClient}
    (hlen : s.inner.iothreads.length < 2 ^ 32) :
    ∃ s' r, s.setThreadCount QemuVmClient.resizeFuel target = some (s', r) := by
  have hfuel : QemuVmClient.resizeFuel = 2 ^ 33 := rfl
  obtain ⟨s1, r1, hup, hlen1⟩ := scaleUpTo_ends ht hlen
  unfold setThreadCount
  rw [hup _ (by omega)]
  cases r1 with
  | error error => exact ⟨s1, _, rfl⟩
  | ok u =>
    obtain ⟨s2, r2, hdown⟩ := scaleDownTo_ends target hlen1
    dsimp only
    rw [hdown _ (by omega)]
    cases r2 with
    | error error => exact ⟨s2, _, rfl⟩
    | ok u => exact ⟨s2, _, rfl⟩

end QemuInstanceClient

/-! ## Runs -/

namespace VmEvent

/-- the environment of the event, if it asks for a snapshot -/
def snapshotEnv : VmEvent → Option SnapshotEnv
  | .call env _ .getThreadPoolSnapshot => some env
  | _ => none

/-- the sample that the event puts into the cache -/
def sample (event : VmEvent) : Option QemuCpuSample :=
  event.snapshotEnv.bind fun env => env.reading.map fun reading => reading.2.2

/-- whether the event is a snapshot of a QEMU without metrics -/
def Unsupported (event : VmEvent) : Prop := ∃ env, event.snapshotEnv = some env ∧ env.Unsupported

instance (event : VmEvent) : Decidable event.Unsupported :=
  match h : event.snapshotEnv with
  | none => isFalse fun ⟨_, henv, _⟩ => by rw [h] at henv; cases henv
  | some env => decidable_of_iff env.Unsupported
      ⟨fun hu => ⟨env, h, hu⟩, fun ⟨_, henv, hu⟩ => by rw [h] at henv; cases henv; exact hu⟩

end VmEvent

namespace QemuVmClient

variable (ticksPerSecond : ℕ) {s : QemuVmClient}

/-- an event that is no snapshot leaves alone what only snapshots use -/
theorem step_other (s : QemuVmClient) {event : VmEvent} (h : event.snapshotEnv = none) :
    (s.step ticksPerSecond event).lastSample = s.lastSample ∧
      (s.step ticksPerSecond event).warnedUnsupportedMetrics = s.warnedUnsupportedMetrics ∧
      (s.step ticksPerSecond event).warnings = s.warnings ∧ (s.step ticksPerSecond event).vcpuCount = s.vcpuCount := by
  cases event with
  | outside qemu => exact ⟨rfl, rfl, rfl, rfl⟩
  | call env fault operation =>
    cases operation with
    | getThreadPoolSnapshot => cases h
    | _ => exact ⟨rfl, rfl, rfl, rfl⟩

theorem step_snapshot (s : QemuVmClient) (env : SnapshotEnv) (fault : ℕ → Option QemuError) :
    s.step ticksPerSecond (.call env fault .getThreadPoolSnapshot) =
      ((s.begin fault).getThreadPoolSnapshot ticksPerSecond env).1 := rfl

/-- the event is a snapshot, or leaves alone what only snapshots use -/
theorem snapshotEnv_cases (event : VmEvent) :
    (∃ env fault, event = .call env fault .getThreadPoolSnapshot) ∨ event.snapshotEnv = none := by
  cases event with
  | outside qemu => exact Or.inr rfl
  | call env fault operation =>
    cases operation with
    | getThreadPoolSnapshot => exact Or.inl ⟨env, fault, rfl⟩
    | _ => exact Or.inr rfl

theorem lastSample_step (s : QemuVmClient) (event : VmEvent) :
    (s.step ticksPerSecond event).lastSample = event.sample.or s.lastSample := by
  rcases snapshotEnv_cases event with ⟨env, fault, rfl⟩ | hother
  · rw [step_snapshot, VmEvent.sample, VmEvent.snapshotEnv, Option.bind_some]
    rcases snapshot_cases ticksPerSecond env (s.begin fault) with
      ⟨topo, pid, sample, hreading, heq⟩ | ⟨hreading, -, heq⟩ | ⟨hreading, -, error, heq⟩
    · rw [heq, hreading]
      rfl
    · rw [heq, hreading]
      rfl
    · rw [heq, hreading]
      rfl
  · rw [(step_other ticksPerSecond s hother).1, VmEvent.sample, hother, Option.bind_none, Option.none_or]

/-- the baseline after a run is the sample of the latest snapshot that got through -/
theorem lastSample_run (s : QemuVmClient) (events : List VmEvent) :
    (run (step ticksPerSecond) s events).lastSample = (events.filterMap VmEvent.sample).getLast?.or s.lastSample :=
  run_latest lastSample VmEvent.sample (lastSample_step ticksPerSecond) s events

/-- the warning flag tells whether a QEMU without metrics was met, and the count follows the flag -/
structure Warned (s : QemuVmClient) (unsupported : Prop) : Prop where
  flag : s.warnedUnsupportedMetrics = true ↔ unsupported
  count : s.warnings = if s.warnedUnsupportedMetrics then 1 else 0

theorem Warned.warnings_eq {unsupported : Prop} [Decidable unsupported] (h : s.Warned unsupported) :
    s.warnings = if unsupported then 1 else 0 := h.count.trans (if_congr h.flag rfl rfl)

theorem Warned.snapshot {unsupported : Prop} (h : s.Warned unsupported) (env : SnapshotEnv) :
    (s.getThreadPoolSnapshot ticksPerSecond env).1.Warned (unsupported ∨ env.Unsupported) := by
  rcases snapshot_cases ticksPerSecond env s with
    ⟨topo, pid, sample, hreading, heq⟩ | ⟨-, hu, heq⟩ | ⟨-, hu, error, heq⟩
  · rw [heq, or_iff_left (env.not_unsupported_of_reading hreading)]
    exact ⟨h.flag, h.count⟩
  · rw [heq]
    refine ⟨⟨fun _ => Or.inr hu, fun _ => rfl⟩, ?_⟩
    have hcount := h.count
    change (if s.warnedUnsupportedMetrics then s.warnings else s.warnings + 1) = 1
    cases hflag : s.warnedUnsupportedMetrics with
    | true => simpa [hflag] using hcount
    | false => simpa [hflag] using hcount
  · rw [heq, or_iff_left hu]
    exact h

theorem Warned.step {unsupported : Prop} (h : s.Warned unsupported) (event : VmEvent) :
    (s.step ticksPerSecond event).Warned (unsupported ∨ event.Unsupported) := by
  rcases snapshotEnv_cases event with ⟨env, fault, rfl⟩ | hother
  · have hevent : (VmEvent.call env fault .getThreadPoolSnapshot).Unsupported ↔ env.Unsupported :=
      ⟨fun ⟨_, henv, hu⟩ => by cases henv; exact hu, fun hu => ⟨env, rfl, hu⟩⟩
    rw [step_snapshot, hevent]
    have hbegin : (s.begin fault).Warned unsupported := ⟨h.flag, h.count⟩
    exact hbegin.snapshot ticksPerSecond env
  · have hevent : ¬ event.Unsupported := by
      rintro ⟨env, henv, -⟩
      rw [hother] at henv
      cases henv
    obtain ⟨-, hflag, hcount, -⟩ := step_other ticksPerSecond s hother
    rw [or_iff_left hevent]
    exact ⟨by rw [hflag]; exact h.flag, by rw [hcount, hflag]; exact h.count⟩

theorem warnings_run {unsupported : Prop} (h : s.Warned unsupported) (events : List VmEvent) :
    (run (step ticksPerSecond) s events).Warned (unsupported ∨ ∃ event ∈ events, event.Unsupported) := by
  induction events generalizing s unsupported with
  | nil => simpa using h
  | cons event events ih =>
    have hrest := ih (h.step ticksPerSecond event)
    rw [or_assoc] at hrest
    simpa using hrest

theorem vcpuCount_run (s : QemuVmClient) (events : List VmEvent) :
    (run (step ticksPerSecond) s events).vcpuCount = s.vcpuCount := by
  refine run_inv (C := fun _ _ => True) (fun s' : QemuVmClient => s'.vcpuCount = s.vcpuCount) ?_ rfl (along_true _ _ _)
  rintro s' event hs' -
  rcases snapshotEnv_cases event with ⟨env, fault, rfl⟩ | hother
  · rw [step_snapshot, ← hs']
    rcases snapshot_cases ticksPerSecond env (s'.begin fault) with
      ⟨topo, pid, sample, -, heq⟩ | ⟨-, -, heq⟩ | ⟨-, -, error, heq⟩ <;>
    · rw [heq]
      rfl
  · exact (step_other ticksPerSecond s' hother).2.2.2.trans hs'

end QemuVmClient

/-! ## What snapshots return -/

theorem clampUnit_mem_unit (x : ℚ) : 0 ≤ clampUnit x ∧ clampUnit x ≤ 1 := by
  unfold clampUnit
  split_ifs with hneg hone
  · exact ⟨le_rfl, zero_le_one⟩
  · exact ⟨zero_le_one, le_rfl⟩
  · exact ⟨not_lt.1 hneg, not_lt.1 hone⟩

/-- the mean over the tasks of any two samples is a fraction, also when the clock stands still or runs back -/
theorem diffJiffiesSample_mem_unit (ticksPerSecond : ℕ) (prev cur : QemuCpuSample) :
    0 ≤ QemuCpuSample.diffJiffiesSample ticksPerSecond prev cur ∧
      QemuCpuSample.diffJiffiesSample ticksPerSecond prev cur ≤ 1 := by
  rcases lt_trichotomy prev.wall cur.wall with hlt | heq | hgt
  · rw [diffJiffiesSample_eq ticksPerSecond hlt]
    apply mean_mem_unit
    intro x hx
    obtain ⟨entry, -, hshare⟩ := List.mem_filterMap.1 hx
    obtain ⟨e, -, rfl⟩ := Option.map_eq_some_iff.1 hshare
    exact clampUnit_mem_unit _
  · have hzero : QemuCpuSample.diffJiffiesSample ticksPerSecond prev cur = 0 := by
      unfold QemuCpuSample.diffJiffiesSample
      rw [checkedDurationSince_of_le heq.le]
      simp [heq, asSecs]
    rw [hzero]
    exact ⟨le_rfl, zero_le_one⟩
  · have hzero : QemuCpuSample.diffJiffiesSample ticksPerSecond prev cur = 0 := by
      unfold QemuCpuSample.diffJiffiesSample checkedDurationSince
      rw [if_pos hgt]
    rw [hzero]
    exact ⟨le_rfl, zero_le_one⟩

/-- what a snapshot in the environment `env` does after the events of a run: `s` is the client then, `s'` the client
after the snapshot and `result` what it returns -/
structure Accounts (ticksPerSecond vcpuCount : ℕ) (events : List VmEvent) (env : SnapshotEnv) (s s' : QemuVmClient)
    (result : Except BackendClientError ThreadPoolSnapshot) : Prop where
  /-- it gets through: the cache is the topology, and the utilisation is that since the latest snapshot that got through -/
  through : ∀ topo pid sample, env.reading = some (topo, pid, sample) →
    s'.base.inner = ⟨topo.iothreads, topo.devicePath, topo.vqCount⟩ ∧ s'.iothreadTids = topo.iothreadTids ∧
      result = .ok {
        threadCount := topo.iothreads.length % 2 ^ 32
        vcpuCount
        perf := QemuVmClient.withDepths topo env.perf
        perThreadUtil := (events.filterMap VmEvent.sample).getLast?.map fun prev =>
          QemuCpuSample.diffJiffiesSample ticksPerSecond prev sample }
  /-- QEMU has no metrics: the cached count, at least one, and no utilisation -/
  fallback : env.Unsupported →
    s'.base = s.base ∧ s'.lastSample = s.lastSample ∧
      result = .ok {
        threadCount := max s.base.threadCount 1
        vcpuCount
        perf := env.perf
        perThreadUtil := none }
  /-- anything else is an error that changes nothing -/
  failure : env.reading = none → ¬ env.Unsupported → s' = s ∧ ∃ error, result = .error error
  /-- one warning for the whole lifetime, at the first snapshot of a QEMU without metrics -/
  warnings : s'.warnings = if (∃ event ∈ events, event.Unsupported) ∨ env.Unsupported then 1 else 0
  unit : ∀ snapshot util, result = .ok snapshot → snapshot.perThreadUtil = some util → 0 ≤ util ∧ util ≤ 1

theorem snapshot_accounts (ticksPerSecond : ℕ) (client : LibvirtQmp) (extra vcpuCount : ℕ) (events : List VmEvent)
    (env : SnapshotEnv) :
    let s := run (QemuVmClient.step ticksPerSecond) (.new client extra vcpuCount) events
    Accounts ticksPerSecond vcpuCount events env s (s.getThreadPoolSnapshot ticksPerSecond env).1
      (s.getThreadPoolSnapshot ticksPerSecond env).2 := by
  intro s
  have hsample : s.lastSample = (events.filterMap VmEvent.sample).getLast? :=
    (QemuVmClient.lastSample_run ticksPerSecond _ events).trans Option.or_none
  have hvcpu : s.vcpuCount = vcpuCount := QemuVmClient.vcpuCount_run ticksPerSecond _ events
  have hwarned : s.Warned (False ∨ ∃ event ∈ events, event.Unsupported) :=
    QemuVmClient.warnings_run ticksPerSecond ⟨by simp [QemuVmClient.new], rfl⟩ events
  rw [false_or] at hwarned
  have hwarnings := (hwarned.snapshot ticksPerSecond env).warnings_eq
  rcases QemuVmClient.snapshot_cases ticksPerSecond env s with
    ⟨topo, pid, sample, hreading, heq⟩ | ⟨hreading, hu, heq⟩ | ⟨hreading, hu, error, heq⟩
  · rw [heq] at hwarnings ⊢
    refine ⟨?_, fun hu => absurd hu (env.not_unsupported_of_reading hreading), fun hnone => ?_, hwarnings, ?_⟩
    · intro topo' pid' sample' hreading'
      rw [hreading] at hreading'
      cases hreading'
      refine ⟨rfl, rfl, ?_⟩
      rw [← hsample, ← hvcpu]
      rfl
    · rw [hreading] at hnone
      cases hnone
    · intro snapshot util hsnapshot hutil
      cases hsnapshot
      obtain ⟨prev, -, rfl⟩ := Option.map_eq_some_iff.1 hutil
      exact diffJiffiesSample_mem_unit ticksPerSecond prev sample
  · rw [heq] at hwarnings ⊢
    refine ⟨fun topo pid sample hsome => ?_, fun _ => ?_, fun _ hsupported => absurd hu hsupported, hwarnings, ?_⟩
    · rw [hreading] at hsome
      cases hsome
    · refine ⟨rfl, rfl, ?_⟩
      rw [← hvcpu]
      rfl
    · intro snapshot util hsnapshot hutil
      cases hsnapshot
      cases hutil
  · rw [heq] at hwarnings ⊢
    refine ⟨fun topo pid sample hsome => ?_, fun hu' => absurd hu' hu, fun _ _ => ⟨rfl, error, rfl⟩, hwarnings, ?_⟩
    · rw [hreading] at hsome
      cases hsome
    · intro snapshot util hsnapshot
      cases hsnapshot

end IoThreadController
