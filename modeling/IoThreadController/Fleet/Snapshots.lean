/-
What snapshots without counters do to rates and to the rolling history.

A refresh feeds two difference engines, the per-tick rates and the rolling history, each with its own baseline. A snapshot
without counters reads as zero in both.

- `refresh_rates`, `refresh_rolling`: the deltas behind the rates and in the history, in terms of the two baselines.
- `step_tracks`: the baselines are those of the previous and of the last recorded snapshot.
- `no_spike_iff`: with non-decreasing counters, no rate and no interval counts more than the increase since the latest
  counted snapshot, and the history never more than the last total minus the first, exactly when every counted
  snapshot continues from the latest counted one (`Continues`).
- `counterless_spike`: one missing sample, and the history counts every operation since the start of the VM.
-/
import IoThreadController.Core.Run
import IoThreadController.Model.Instance

namespace IoThreadController

/-! ## Counters -/

/-- the counters behind the five rates -/
inductive PerfCounter where
  | readIo
  | writeIo
  | otherIo
  | readBytes
  | writeBytes
deriving DecidableEq

namespace PerfCounter

/-- the counter in a snapshot, zero without counters -/
def of (perf : Option InstancePerfSample) : PerfCounter → ℕ
  | .readIo => (perf.getD {}).readIoCount
  | .writeIo => (perf.getD {}).writeIoCount
  | .otherIo => (perf.getD {}).otherIoCount
  | .readBytes => (perf.getD {}).readBytesTotal
  | .writeBytes => (perf.getD {}).writeBytesTotal

/-- the baseline of the next rate -/
def previous (status : InstanceStatus) : PerfCounter → ℕ
  | .readIo => status.previousReadIoCount
  | .writeIo => status.previousWriteIoCount
  | .otherIo => status.previousOtherIoCount
  | .readBytes => status.previousReadBytesTotal
  | .writeBytes => status.previousWriteBytesTotal

def rate (status : InstanceStatus) : PerfCounter → ℕ
  | .readIo => status.readIops
  | .writeIo => status.writeIops
  | .otherIo => status.otherIops
  | .readBytes => status.readBytesPerSecond
  | .writeBytes => status.writeBytesPerSecond

@[simp] theorem of_none (c : PerfCounter) : of none c = 0 := by
  cases c <;> rfl

end PerfCounter

/-- totals are monotone in their counters -/
theorem ioTotal_mono {p q : Option InstancePerfSample} (hq : q.isSome = true)
    (h : ∀ c, PerfCounter.of p c ≤ PerfCounter.of q c) : ioTotal p ≤ ioTotal q := by
  cases p with
  | none => exact Nat.zero_le _
  | some p =>
    obtain ⟨q, rfl⟩ := Option.isSome_iff_exists.1 hq
    have hr : p.readIoCount ≤ q.readIoCount := h .readIo
    have hw : p.writeIoCount ≤ q.writeIoCount := h .writeIo
    have ho : p.otherIoCount ≤ q.otherIoCount := h .otherIo
    simp only [ioTotal, InstancePerfSample.totalIoCount, satAdd]
    omega

/-! ## One refresh -/

/-- time since the last refresh, zero when a rate cannot be computed -/
def rateElapsed (status : InstanceStatus) (now : Instant) : ℕ :=
  match status.previousPerfTime with
  | some previousTime => (checkedDurationSince now previousTime).getD 0
  | none => 0

theorem rateElapsed_pos {status : InstanceStatus} {now : Instant} :
    0 < rateElapsed status now ↔ ∃ t, status.previousPerfTime = some t ∧ t < now := by
  unfold rateElapsed checkedDurationSince
  cases status.previousPerfTime with
  | none => simp
  | some t =>
    simp only [Option.some.injEq, exists_eq_left']
    split_ifs with h
    · simp only [Option.getD_none, lt_irrefl, false_iff]
      exact not_lt.2 h.le
    · simp only [Option.getD_some]
      exact Nat.sub_pos_iff_lt

/-- the status with the rates of one refresh, before the baseline is replaced -/
def rated (status : InstanceStatus) (perf : Option InstancePerfSample) (now : Instant) : InstanceStatus :=
  if 0 < rateElapsed status now then
    { status with
      readIops := perfRate (rateElapsed status now) (perf.getD {}).readIoCount status.previousReadIoCount
      writeIops := perfRate (rateElapsed status now) (perf.getD {}).writeIoCount status.previousWriteIoCount
      otherIops := perfRate (rateElapsed status now) (perf.getD {}).otherIoCount status.previousOtherIoCount
      readBytesPerSecond :=
        perfRate (rateElapsed status now) (perf.getD {}).readBytesTotal status.previousReadBytesTotal
      writeBytesPerSecond :=
        perfRate (rateElapsed status now) (perf.getD {}).writeBytesTotal status.previousWriteBytesTotal }
  else status

theorem updatePerfRates_rates (status : InstanceStatus) (perf : Option InstancePerfSample) (now : Instant) :
    (updatePerfRates status perf now).readIops = (rated status perf now).readIops ∧
    (updatePerfRates status perf now).writeIops = (rated status perf now).writeIops ∧
    (updatePerfRates status perf now).otherIops = (rated status perf now).otherIops ∧
    (updatePerfRates status perf now).readBytesPerSecond = (rated status perf now).readBytesPerSecond ∧
    (updatePerfRates status perf now).writeBytesPerSecond = (rated status perf now).writeBytesPerSecond :=
  ⟨rfl, rfl, rfl, rfl, rfl⟩

theorem rated_of_pos {status : InstanceStatus} {now : Instant} (perf : Option InstancePerfSample)
    (h : 0 < rateElapsed status now) (c : PerfCounter) :
    PerfCounter.rate (rated status perf now) c =
      perfRate (rateElapsed status now) (PerfCounter.of perf c) (PerfCounter.previous status c) := by
  have hrated : rated status perf now = _ := if_pos h
  cases c with
  | readIo => exact congrArg InstanceStatus.readIops hrated
  | writeIo => exact congrArg InstanceStatus.writeIops hrated
  | otherIo => exact congrArg InstanceStatus.otherIops hrated
  | readBytes => exact congrArg InstanceStatus.readBytesPerSecond hrated
  | writeBytes => exact congrArg InstanceStatus.writeBytesPerSecond hrated

/-- a refresh replaces the rates when time has passed, and leaves them otherwise -/
theorem updatePerfRates_rate (status : InstanceStatus) (perf : Option InstancePerfSample) (now : Instant)
    (c : PerfCounter) :
    PerfCounter.rate (updatePerfRates status perf now) c =
      if 0 < rateElapsed status now then
        perfRate (rateElapsed status now) (PerfCounter.of perf c) (PerfCounter.previous status c)
      else PerfCounter.rate status c := by
  have hrated : PerfCounter.rate (updatePerfRates status perf now) c = PerfCounter.rate (rated status perf now) c := by
    obtain ⟨h1, h2, h3, h4, h5⟩ := updatePerfRates_rates status perf now
    cases c with
    | readIo => exact h1
    | writeIo => exact h2
    | otherIo => exact h3
    | readBytes => exact h4
    | writeBytes => exact h5
  rw [hrated]
  split_ifs with h
  · exact rated_of_pos perf h c
  · rw [rated, if_neg h]

/-- the baseline of a history: time, operations and CPU ticks -/
def RollingMetrics.baseline (m : RollingMetrics) : Option (Instant × ℕ × Option ℕ) :=
  match m.previousWallTs, m.previousIoOps with
  | some wallTs, some ioOps => some (wallTs, ioOps, m.previousCpuTicks)
  | _, _ => none

section Refresh

variable (refreshCgroup : Bool) (env : RefreshEnv) (status : InstanceStatus) (snapshot : ThreadPoolSnapshot)

theorem refreshUtilisation_counters (backendUtil : Option ℚ) (cpu : Option CpuSample) :
    (refreshUtilisation env status backendUtil cpu).previousPerfTime = status.previousPerfTime ∧
    (∀ c, PerfCounter.previous (refreshUtilisation env status backendUtil cpu) c = PerfCounter.previous status c) ∧
    (∀ c, PerfCounter.rate (refreshUtilisation env status backendUtil cpu) c = PerfCounter.rate status c) ∧
    (refreshUtilisation env status backendUtil cpu).rolling = status.rolling := by
  unfold refreshUtilisation
  repeat' split
  all_goals exact ⟨rfl, fun c => by cases c <;> rfl, fun c => by cases c <;> rfl, rfl⟩

/-- the rates that a refresh computes, and the baseline that it leaves for the next one -/
theorem refresh_rates :
    (applyThreadPoolSnapshot refreshCgroup env status snapshot).previousPerfTime = some env.now ∧
    (∀ c, PerfCounter.previous (applyThreadPoolSnapshot refreshCgroup env status snapshot) c =
      PerfCounter.of snapshot.perf c) ∧
    ∀ c, PerfCounter.rate (applyThreadPoolSnapshot refreshCgroup env status snapshot) c =
      if 0 < rateElapsed status env.now then
        perfRate (rateElapsed status env.now) (PerfCounter.of snapshot.perf c) (PerfCounter.previous status c)
      else PerfCounter.rate status c := by
  have hkeep := refreshUtilisation_counters env
  refine ⟨?_, ?_, ?_⟩
  · exact (hkeep _ _ _).1
  · intro c
    cases c with
    | readIo => exact (hkeep _ _ _).2.1 .readIo
    | writeIo => exact (hkeep _ _ _).2.1 .writeIo
    | otherIo => exact (hkeep _ _ _).2.1 .otherIo
    | readBytes => exact (hkeep _ _ _).2.1 .readBytes
    | writeBytes => exact (hkeep _ _ _).2.1 .writeBytes
  · intro c
    have hrate (classified : InstanceStatus) := updatePerfRates_rate classified snapshot.perf env.now c
    cases c with
    | readIo => exact ((hkeep _ _ _).2.2.1 .readIo).trans (hrate _)
    | writeIo => exact ((hkeep _ _ _).2.2.1 .writeIo).trans (hrate _)
    | otherIo => exact ((hkeep _ _ _).2.2.1 .otherIo).trans (hrate _)
    | readBytes => exact ((hkeep _ _ _).2.2.1 .readBytes).trans (hrate _)
    | writeBytes => exact ((hkeep _ _ _).2.2.1 .writeBytes).trans (hrate _)

/-- the refresh has what its kind of interval needs: a backend utilisation, or CPU ticks at both ends -/
def ClosesInterval (previousCpuTicks : Option ℕ) : Prop :=
  match snapshot.perThreadUtil, env.cpu with
  | some _, _ => True
  | none, some current => (previousCpuTicks.any fun ticks => ticks ≤ current.cpuTicks) = true
  | none, none => False

instance (previousCpuTicks : Option ℕ) : Decidable (ClosesInterval env snapshot previousCpuTicks) := by
  unfold ClosesInterval
  exact match snapshot.perThreadUtil, env.cpu with
    | some _, _ => inferInstance
    | none, some _ => inferInstance
    | none, none => inferInstance

/-- the `io_ops_delta` that the refresh appends to the history, if it appends an interval -/
def appendedDelta : Option ℕ :=
  match status.rolling.baseline with
  | some (wallTs, ioOps, cpuTicks) =>
    if wallTs ≤ env.now ∧ ioOps ≤ ioTotal snapshot.perf ∧ ClosesInterval env snapshot cpuTicks then
      some (ioTotal snapshot.perf - ioOps)
    else none
  | none => none

/-- what the refresh records for the next interval; without a CPU sample it records nothing -/
def nextInterval {α : Type} (recorded : α) (old : Option (Instant × α × Option ℕ)) : Option (Instant × α × Option ℕ) :=
  match snapshot.perThreadUtil, env.cpu with
  | some _, _ => some (env.now, recorded, none)
  | none, some current => some (env.now, recorded, some current.cpuTicks)
  | none, none => old

end Refresh

/-- `m'` holds the intervals of `m` and one more with `delta` operations, except the oldest ones -/
def Appends (m : RollingMetrics) (delta : ℕ) (m' : RollingMetrics) : Prop :=
  ∃ sample dropped, sample.ioOpsDelta = delta ∧ m.samples ++ [sample] = dropped ++ m'.samples

theorem RollingMetrics.trim_spec (m : RollingMetrics) (now : Instant) :
    (m.trim now).baseline = m.baseline ∧ ∃ dropped, m.samples = dropped ++ (m.trim now).samples := by
  unfold trim
  split_ifs
  · exact ⟨rfl, [], rfl⟩
  · exact ⟨rfl, _, List.takeWhile_append_dropWhile.symm⟩

theorem checkedDurationSince_none {later earlier : Instant} (h : ¬ earlier ≤ later) :
    checkedDurationSince later earlier = none := by
  simp [checkedDurationSince, not_le.1 h]

/-- an interval that is appended and then trimmed -/
theorem appends_trim {m m' : RollingMetrics} {sample : TickSample} (h : m'.samples = m.samples ++ [sample])
    {delta : ℕ} (hdelta : sample.ioOpsDelta = delta) (now : Instant) : Appends m delta (m'.trim now) := by
  obtain ⟨-, dropped, hdropped⟩ := m'.trim_spec now
  exact ⟨sample, dropped, hdelta, h.symm.trans hdropped⟩

theorem pushFromBackendUtil_spec (m : RollingMetrics) (now : Instant) (ioOps : ℕ) (util : ℚ) (threadCount : ℕ) :
    (m.pushFromBackendUtil now ioOps util threadCount).baseline = some (now, ioOps, none) ∧
    match m.baseline with
    | some (wallTs, previous, _) =>
      if wallTs ≤ now ∧ previous ≤ ioOps then
        Appends m (ioOps - previous) (m.pushFromBackendUtil now ioOps util threadCount)
      else (m.pushFromBackendUtil now ioOps util threadCount).samples = m.samples
    | none => (m.pushFromBackendUtil now ioOps util threadCount).samples = m.samples := by
  unfold RollingMetrics.pushFromBackendUtil RollingMetrics.baseline
  rcases m.previousWallTs with _ | wallTs
  · exact ⟨rfl, rfl⟩
  rcases m.previousIoOps with _ | previous
  · exact ⟨rfl, rfl⟩
  dsimp only
  by_cases ht : wallTs ≤ now
  · rw [checkedDurationSince_of_le ht]
    dsimp only
    by_cases hio : previous ≤ ioOps
    · rw [if_neg (not_lt.2 hio), if_pos ⟨ht, hio⟩]
      refine ⟨(RollingMetrics.trim_spec _ now).1, ?_⟩
      apply appends_trim
      · rfl
      · rfl
    · rw [if_pos (not_le.1 hio), if_neg fun h => hio h.2]
      exact ⟨rfl, rfl⟩
  · rw [checkedDurationSince_none ht, if_neg fun h => ht h.1]
    exact ⟨rfl, rfl⟩

theorem pushFromProcfsDelta_spec (ticksPerSecond : ℕ) (m : RollingMetrics) (now : Instant) (ioOps cpuTicks : ℕ) :
    (m.pushFromProcfsDelta ticksPerSecond now ioOps cpuTicks).baseline = some (now, ioOps, some cpuTicks) ∧
    match m.baseline with
    | some (wallTs, previous, previousTicks) =>
      if wallTs ≤ now ∧ previous ≤ ioOps ∧ (previousTicks.any fun ticks => ticks ≤ cpuTicks) = true then
        Appends m (ioOps - previous) (m.pushFromProcfsDelta ticksPerSecond now ioOps cpuTicks)
      else (m.pushFromProcfsDelta ticksPerSecond now ioOps cpuTicks).samples = m.samples
    | none => (m.pushFromProcfsDelta ticksPerSecond now ioOps cpuTicks).samples = m.samples := by
  unfold RollingMetrics.pushFromProcfsDelta RollingMetrics.baseline
  rcases m.previousWallTs with _ | wallTs
  · exact ⟨rfl, rfl⟩
  rcases m.previousIoOps with _ | previous
  · exact ⟨rfl, rfl⟩
  rcases m.previousCpuTicks with _ | ticks
  · dsimp only
    rw [if_neg fun h => by simp at h]
    exact ⟨rfl, rfl⟩
  dsimp only
  by_cases ht : wallTs ≤ now
  · rw [checkedDurationSince_of_le ht]
    dsimp only
    by_cases hkeep : previous ≤ ioOps ∧ ticks ≤ cpuTicks
    · rw [if_neg (by omega), if_pos ⟨ht, hkeep.1, by simpa using hkeep.2⟩]
      refine ⟨(RollingMetrics.trim_spec _ now).1, ?_⟩
      apply appends_trim
      · rfl
      · rfl
    · rw [if_pos (by omega), if_neg fun h => hkeep ⟨h.2.1, by simpa using h.2.2⟩]
      exact ⟨rfl, rfl⟩
  · rw [checkedDurationSince_none ht, if_neg fun h => ht h.1]
    exact ⟨rfl, rfl⟩

/-- which push a refresh makes -/
theorem refresh_push (refreshCgroup : Bool) (env : RefreshEnv) (status : InstanceStatus)
    (snapshot : ThreadPoolSnapshot) :
    (applyThreadPoolSnapshot refreshCgroup env status snapshot).rolling =
      match snapshot.perThreadUtil, env.cpu with
      | some util, _ =>
        status.rolling.pushFromBackendUtil env.now (ioTotal snapshot.perf) (clampUnit util) snapshot.threadCount
      | none, some current =>
        status.rolling.pushFromProcfsDelta env.ticksPerSecond env.now (ioTotal snapshot.perf) current.cpuTicks
      | none, none => status.rolling := by
  have hkeep (s : InstanceStatus) (util : Option ℚ) (cpu : Option CpuSample) :=
    (refreshUtilisation_counters env s util cpu).2.2.2
  have hrates : (updatePerfRates { status with
      ownershipClassification := some (status.ownershipClassification.getD
        (env.initialPoolIsManaged snapshot.threadCount snapshot.vcpuCount)) } snapshot.perf env.now).rolling =
      status.rolling := by
    unfold updatePerfRates
    dsimp only
    split_ifs <;> rfl
  simp only [applyThreadPoolSnapshot, hkeep]
  rw [hrates]
  cases snapshot.perThreadUtil with
  | some util => rfl
  | none =>
    cases env.cpu with
    | some current => rfl
    | none => rfl

/-- what a refresh appends to the history, and the baseline that it leaves for the next interval -/
theorem refresh_rolling (refreshCgroup : Bool) (env : RefreshEnv) (status : InstanceStatus)
    (snapshot : ThreadPoolSnapshot) :
    (applyThreadPoolSnapshot refreshCgroup env status snapshot).rolling.baseline =
      nextInterval env snapshot (ioTotal snapshot.perf) status.rolling.baseline ∧
    match appendedDelta env status snapshot with
    | some delta => Appends status.rolling delta (applyThreadPoolSnapshot refreshCgroup env status snapshot).rolling
    | none => (applyThreadPoolSnapshot refreshCgroup env status snapshot).rolling.samples = status.rolling.samples := by
  rw [refresh_push]
  unfold nextInterval appendedDelta
  cases hu : snapshot.perThreadUtil with
  | some util =>
    obtain ⟨hbase, happ⟩ := pushFromBackendUtil_spec status.rolling env.now (ioTotal snapshot.perf) (clampUnit util)
      snapshot.threadCount
    have hcloses (ticks : Option ℕ) : ClosesInterval env snapshot ticks ↔ True := by simp [ClosesInterval, hu]
    refine ⟨hbase, ?_⟩
    rcases hb : status.rolling.baseline with _ | ⟨wallTs, previous, ticks⟩ <;> rw [hb] at happ
    · exact happ
    · simp only [hcloses, and_true]
      dsimp only at happ
      split_ifs at happ ⊢
      · exact happ
      · exact happ
  | none =>
    cases hc : env.cpu with
    | some current =>
      obtain ⟨hbase, happ⟩ := pushFromProcfsDelta_spec env.ticksPerSecond status.rolling env.now
        (ioTotal snapshot.perf) current.cpuTicks
      have hcloses (ticks : Option ℕ) : ClosesInterval env snapshot ticks ↔
          (ticks.any fun t => t ≤ current.cpuTicks) = true := by simp [ClosesInterval, hu, hc]
      refine ⟨hbase, ?_⟩
      rcases hb : status.rolling.baseline with _ | ⟨wallTs, previous, ticks⟩ <;> rw [hb] at happ
      · exact happ
      · simp only [hcloses]
        dsimp only at happ
        split_ifs at happ ⊢
        · exact happ
        · exact happ
    | none =>
      have hcloses (ticks : Option ℕ) : ¬ ClosesInterval env snapshot ticks := by simp [ClosesInterval, hu, hc]
      refine ⟨rfl, ?_⟩
      rcases status.rolling.baseline with _ | ⟨wallTs, previous, ticks⟩
      · rfl
      · simp only [hcloses, and_false, if_false]

/-! ## Runs -/

/-- what happens to one status: a successful snapshot, or the bookkeeping of actions and requests between two of them -/
inductive StatusEvent where
  | refresh (refreshCgroup : Bool) (env : RefreshEnv) (snapshot : ThreadPoolSnapshot)
  | act (threadCount : ℕ) (cooldownUntil : Option Instant) (sticky : Bool) (classification : Option Bool)

def statusStep (status : InstanceStatus) : StatusEvent → InstanceStatus
  | .refresh refreshCgroup env snapshot => applyThreadPoolSnapshot refreshCgroup env status snapshot
  | .act threadCount cooldownUntil sticky classification =>
    { status with
      threadCount := threadCount
      cooldownUntil := cooldownUntil
      manualScalingSticky := sticky
      ownershipClassification := classification }

/-- the snapshots of one VM so far -/
structure SnapshotHistory where
  /-- the first snapshot with counters -/
  first : Option InstancePerfSample := none
  /-- the latest snapshot with counters -/
  last : Option InstancePerfSample := none
  /-- the previous snapshot: when it was taken, and its counters -/
  previous : Option (Instant × Option InstancePerfSample) := none
  /-- the latest snapshot with a utilisation or a CPU sample: when it was taken, its counters and its CPU ticks -/
  interval : Option (Instant × Option InstancePerfSample × Option ℕ) := none

def noteSnapshot (_ : InstanceStatus) (e : StatusEvent) (h : SnapshotHistory) : SnapshotHistory :=
  match e with
  | .act .. => h
  | .refresh _ env snapshot =>
    { first := h.first.or snapshot.perf
      last := snapshot.perf.or h.last
      previous := some (env.now, snapshot.perf)
      interval := nextInterval env snapshot snapshot.perf h.interval }

/-- a status with its history -/
abbrev snapshotStep : InstanceStatus × SnapshotHistory → StatusEvent → InstanceStatus × SnapshotHistory :=
  Core.withHistory statusStep noteSnapshot

/-- the counters of a snapshot are at least those of the latest counted one -/
def NonDecreasing (x : InstanceStatus × SnapshotHistory) : StatusEvent → Prop
  | .act .. => True
  | .refresh _ _ snapshot =>
    snapshot.perf.isSome = true → ∀ c, PerfCounter.of x.2.last c ≤ PerfCounter.of snapshot.perf c

/-- no rate and no interval of this refresh counts more than the increase since the latest counted snapshot -/
def NoSpike (x : InstanceStatus × SnapshotHistory) : StatusEvent → Prop
  | .act .. => True
  | .refresh _ env snapshot =>
    (0 < rateElapsed x.1 env.now → ∀ c, PerfCounter.of snapshot.perf c - PerfCounter.previous x.1 c ≤
      if x.2.last.isSome then PerfCounter.of snapshot.perf c - PerfCounter.of x.2.last c else 0) ∧
    ∀ delta, appendedDelta env x.1 snapshot = some delta → delta ≤
      if x.2.last.isSome then ioTotal snapshot.perf - ioTotal x.2.last else 0

/-- no window of the history counts more operations than the last total minus the first -/
def WindowsBounded (x : InstanceStatus × SnapshotHistory) : Prop :=
  ∀ window ioOps cpuNs wallNs, x.1.rolling.totals window = some (ioOps, cpuNs, wallNs) →
    ioOps ≤ ioTotal x.2.last - ioTotal x.2.first

/-- a counted snapshot continues from the latest counted one: when time has passed, the previous snapshot carried counters
too, unless the counters were at zero; and an interval that it closes starts at the latest counted total -/
def Continues (x : InstanceStatus × SnapshotHistory) : StatusEvent → Prop
  | .act .. => True
  | .refresh _ env snapshot => snapshot.perf.isSome = true →
    (∀ t, x.2.previous = some (t, none) → t < env.now → ∀ c, PerfCounter.of (x.2.last.or snapshot.perf) c = 0) ∧
    ∀ t start ticks, x.2.interval = some (t, start, ticks) → t ≤ env.now → ClosesInterval env snapshot ticks →
      ioTotal (x.2.last.or snapshot.perf) ≤ ioTotal start

/-- the baselines of the status are those of the history -/
structure Tracks (x : InstanceStatus × SnapshotHistory) : Prop where
  time : x.1.previousPerfTime = x.2.previous.map Prod.fst
  counters : ∀ c, PerfCounter.previous x.1 c = PerfCounter.of (x.2.previous.bind Prod.snd) c
  baseline : x.1.rolling.baseline = x.2.interval.map fun r => (r.1, ioTotal r.2.1, r.2.2)
  previous_last : ∀ t p, x.2.previous = some (t, some p) → x.2.last = some p
  interval_last : ∀ t start ticks, x.2.interval = some (t, start, ticks) → ioTotal start ≤ ioTotal x.2.last
  first_last : x.2.first.isSome = x.2.last.isSome

theorem new_tracks (d : Discovered) : Tracks ((Instance.new d).status, {}) := by
  refine ⟨rfl, ?_, rfl, ?_, ?_, rfl⟩
  · intro c
    cases c <;> rfl
  · intro t p h
    simp at h
  · intro t start ticks h
    simp at h

theorem nextInterval_map {α β : Type} (f : α → β) (env : RefreshEnv) (snapshot : ThreadPoolSnapshot) (recorded : α)
    (old : Option (Instant × α × Option ℕ)) :
    nextInterval env snapshot (f recorded) (old.map fun r => (r.1, f r.2.1, r.2.2)) =
      (nextInterval env snapshot recorded old).map fun r => (r.1, f r.2.1, r.2.2) := by
  unfold nextInterval
  cases snapshot.perThreadUtil with
  | some util => rfl
  | none =>
    cases env.cpu with
    | some current => rfl
    | none => rfl

/-- a recorded interval starts at this snapshot or where it started before -/
theorem nextInterval_some {α : Type} {env : RefreshEnv} {snapshot : ThreadPoolSnapshot} {recorded start : α}
    {old : Option (Instant × α × Option ℕ)} {t : Instant} {ticks : Option ℕ}
    (h : nextInterval env snapshot recorded old = some (t, start, ticks)) :
    start = recorded ∨ old = some (t, start, ticks) := by
  unfold nextInterval at h
  split at h
  · exact Or.inl (Prod.mk.inj (Prod.mk.inj (Option.some.inj h)).2).1.symm
  · exact Or.inl (Prod.mk.inj (Prod.mk.inj (Option.some.inj h)).2).1.symm
  · exact Or.inr h

theorem step_tracks {x : InstanceStatus × SnapshotHistory} {e : StatusEvent} (h : Tracks x) (hmono : NonDecreasing x e) :
    Tracks (snapshotStep x e) := by
  cases e with
  | act threadCount cooldownUntil sticky classification =>
    refine ⟨h.time, fun c => ?_, h.baseline, h.previous_last, h.interval_last, h.first_last⟩
    refine Eq.trans ?_ (h.counters c)
    cases c <;> rfl
  | refresh refreshCgroup env snapshot =>
    obtain ⟨htime, hcounters, -⟩ := refresh_rates refreshCgroup env x.1 snapshot
    refine ⟨htime, hcounters, ?_, ?_, ?_, ?_⟩
    · refine (refresh_rolling refreshCgroup env x.1 snapshot).1.trans ?_
      rw [h.baseline]
      exact nextInterval_map ioTotal env snapshot snapshot.perf x.2.interval
    · intro t p hp
      have hperf : snapshot.perf = some p := (Prod.mk.inj (Option.some.inj hp)).2
      simp [Core.withHistory, noteSnapshot, hperf]
    · intro t start ticks hi
      have hlast : ioTotal x.2.last ≤ ioTotal (snapshot.perf.or x.2.last) := by
        cases hperf : snapshot.perf with
        | none => exact le_rfl
        | some p =>
          apply ioTotal_mono rfl
          intro c
          have hle := hmono (by rw [hperf]; rfl) c
          rw [hperf] at hle
          exact hle
      change ioTotal start ≤ ioTotal (snapshot.perf.or x.2.last)
      rcases nextInterval_some hi with rfl | hold
      · cases snapshot.perf with
        | none => exact Nat.zero_le _
        | some p => exact le_rfl
      · exact (h.interval_last t start ticks hold).trans hlast
    · change (x.2.first.or snapshot.perf).isSome = (snapshot.perf.or x.2.last).isSome
      have hfl := h.first_last
      cases snapshot.perf <;> simp [hfl]

/-- time has passed for the rates since a refresh at an earlier reading -/
theorem Tracks.elapsed {x : InstanceStatus × SnapshotHistory} (h : Tracks x) {now : Instant} :
    0 < rateElapsed x.1 now ↔ ∃ t p, x.2.previous = some (t, p) ∧ t < now := by
  rw [rateElapsed_pos, h.time]
  constructor
  · intro hpos
    obtain ⟨t, ht, hlt⟩ := hpos
    obtain ⟨⟨t', p⟩, hp, rfl⟩ := Option.map_eq_some_iff.1 ht
    exact ⟨t', p, hp, hlt⟩
  · intro hpos
    obtain ⟨t, p, hp, hlt⟩ := hpos
    exact ⟨t, by rw [hp]; rfl, hlt⟩

/-- the counters that a rate starts from are those of the previous refresh -/
theorem Tracks.counter {x : InstanceStatus × SnapshotHistory} (h : Tracks x) {t : Instant}
    {p : Option InstancePerfSample} (hp : x.2.previous = some (t, p)) (c : PerfCounter) :
    PerfCounter.previous x.1 c = PerfCounter.of p c := by
  rw [h.counters, hp]
  rfl

/-- a rate is spared exactly when its baseline is the latest counted snapshot, or nothing was counted yet -/
theorem rates_spared_iff {x : InstanceStatus × SnapshotHistory} (h : Tracks x) {refreshCgroup : Bool} {env : RefreshEnv}
    {snapshot : ThreadPoolSnapshot} (hmono : NonDecreasing x (.refresh refreshCgroup env snapshot)) :
    (0 < rateElapsed x.1 env.now → ∀ c, PerfCounter.of snapshot.perf c - PerfCounter.previous x.1 c ≤
        if x.2.last.isSome then PerfCounter.of snapshot.perf c - PerfCounter.of x.2.last c else 0) ↔
      (snapshot.perf.isSome = true → ∀ t, x.2.previous = some (t, none) → t < env.now →
        ∀ c, PerfCounter.of (x.2.last.or snapshot.perf) c = 0) := by
  constructor
  · intro hspared hperf t hp hlt c
    have hle := hspared (h.elapsed.2 ⟨t, none, hp, hlt⟩) c
    rw [h.counter hp, PerfCounter.of_none, Nat.sub_zero] at hle
    have hgrow := hmono hperf c
    cases hlast : x.2.last with
    | none =>
      rw [hlast] at hle
      simpa using hle
    | some q =>
      rw [hlast] at hle hgrow
      simp only [Option.isSome_some, if_true] at hle
      change PerfCounter.of (some q) c = 0
      omega
  · intro hzero hpos c
    obtain ⟨t, p, hp, hlt⟩ := h.elapsed.1 hpos
    rw [h.counter hp]
    cases hperf : snapshot.perf with
    | none => simp
    | some r =>
      cases p with
      | some p =>
        rw [h.previous_last t p hp]
        exact le_rfl
      | none =>
        have hc := hzero (by rw [hperf]; rfl) t hp hlt c
        rw [PerfCounter.of_none, Nat.sub_zero]
        cases hlast : x.2.last with
        | none =>
          rw [hlast, hperf] at hc
          exact hc.le
        | some q =>
          rw [hlast] at hc
          change PerfCounter.of (some q) c = 0 at hc
          simp only [Option.isSome_some, if_true, hc, Nat.sub_zero]
          exact le_rfl

/-- the interval that a refresh appends, in terms of the history -/
theorem appendedDelta_some {x : InstanceStatus × SnapshotHistory} (h : Tracks x) {env : RefreshEnv}
    {snapshot : ThreadPoolSnapshot} {delta : ℕ} :
    appendedDelta env x.1 snapshot = some delta ↔ ∃ t start ticks, x.2.interval = some (t, start, ticks) ∧
      t ≤ env.now ∧ ioTotal start ≤ ioTotal snapshot.perf ∧ ClosesInterval env snapshot ticks ∧
      delta = ioTotal snapshot.perf - ioTotal start := by
  unfold appendedDelta
  rw [h.baseline]
  rcases hi : x.2.interval with _ | ⟨t, start, ticks⟩
  · simp
  · simp only [Option.map_some]
    split_ifs with hc
    · constructor
      · intro hd
        exact ⟨t, start, ticks, rfl, hc.1, hc.2.1, hc.2.2, (Option.some.inj hd).symm⟩
      · intro hd
        obtain ⟨t', start', ticks', heq, -, -, -, rfl⟩ := hd
        cases heq
        rfl
    · constructor
      · intro hd
        simp at hd
      · intro hd
        obtain ⟨t', start', ticks', heq, ht, hle, hcl, -⟩ := hd
        cases heq
        exact (hc ⟨ht, hle, hcl⟩).elim

/-- a counted total is at least the latest one -/
theorem ioTotal_last_le {x : InstanceStatus × SnapshotHistory} {refreshCgroup : Bool} {env : RefreshEnv}
    {snapshot : ThreadPoolSnapshot} (hmono : NonDecreasing x (.refresh refreshCgroup env snapshot))
    (hperf : snapshot.perf.isSome = true) : ioTotal x.2.last ≤ ioTotal snapshot.perf :=
  ioTotal_mono hperf (hmono hperf)

/-- an interval is spared exactly when it starts at the latest counted total -/
theorem interval_spared_iff {x : InstanceStatus × SnapshotHistory} (h : Tracks x) {refreshCgroup : Bool}
    {env : RefreshEnv} {snapshot : ThreadPoolSnapshot}
    (hmono : NonDecreasing x (.refresh refreshCgroup env snapshot)) :
    (∀ delta, appendedDelta env x.1 snapshot = some delta → delta ≤
        if x.2.last.isSome then ioTotal snapshot.perf - ioTotal x.2.last else 0) ↔
      (snapshot.perf.isSome = true → ∀ t start ticks, x.2.interval = some (t, start, ticks) → t ≤ env.now →
        ClosesInterval env snapshot ticks → ioTotal (x.2.last.or snapshot.perf) ≤ ioTotal start) := by
  constructor
  · intro hspared hperf t start ticks hi ht hc
    have hstart := h.interval_last t start ticks hi
    have hlast := ioTotal_last_le hmono hperf
    have hle := hspared _ ((appendedDelta_some h).2 ⟨t, start, ticks, hi, ht, hstart.trans hlast, hc, rfl⟩)
    cases hl : x.2.last with
    | none =>
      rw [hl] at hle
      simp only [Option.isSome_none, Bool.false_eq_true, if_false] at hle
      change ioTotal snapshot.perf ≤ ioTotal start
      omega
    | some q =>
      rw [hl] at hle hlast hstart
      simp only [Option.isSome_some, if_true] at hle
      change ioTotal (some q) ≤ ioTotal start
      omega
  · intro hstarts delta hd
    obtain ⟨t, start, ticks, hi, ht, hle, hc, rfl⟩ := (appendedDelta_some h).1 hd
    cases hperf : snapshot.perf with
    | none =>
      have hzero : ioTotal none - ioTotal start = 0 := Nat.zero_sub _
      rw [hzero]
      exact Nat.zero_le _
    | some p =>
      have hlast := hstarts (by rw [hperf]; rfl) t start ticks hi ht hc
      cases hl : x.2.last with
      | none =>
        rw [hl, hperf] at hlast
        change ioTotal (some p) ≤ ioTotal start at hlast
        simp only [Option.isSome_none, Bool.false_eq_true, if_false]
        omega
      | some q =>
        rw [hl] at hlast
        change ioTotal (some q) ≤ ioTotal start at hlast
        simp only [Option.isSome_some, if_true]
        omega

theorem noSpike_iff {x : InstanceStatus × SnapshotHistory} {e : StatusEvent} (h : Tracks x)
    (hmono : NonDecreasing x e) : NoSpike x e ↔ Continues x e := by
  cases e with
  | act threadCount cooldownUntil sticky classification => exact Iff.rfl
  | refresh refreshCgroup env snapshot =>
    refine (and_congr (rates_spared_iff h hmono) (interval_spared_iff h hmono)).trans ?_
    exact ⟨fun hx hperf => ⟨hx.1 hperf, hx.2 hperf⟩, fun hx => ⟨fun hperf => (hx hperf).1, fun hperf => (hx hperf).2⟩⟩

/-! ## The history as a whole -/

/-- the operations of all retained intervals -/
def RollingMetrics.operations (m : RollingMetrics) : ℕ := (m.samples.map TickSample.ioOpsDelta).sum

theorem totals_le (m : RollingMetrics) {window ioOps cpuNs wallNs : ℕ}
    (h : m.totals window = some (ioOps, cpuNs, wallNs)) : ioOps ≤ m.operations := by
  have hfold : ∀ (samples : List TickSample) (sums : ℕ × ℕ × ℕ),
      (samples.foldl (fun sums sample => (satAdd sums.1 sample.ioOpsDelta, satAdd sums.2.1 sample.cpuNsDelta,
        satAdd sums.2.2 sample.wallDtNs)) sums).1 ≤ sums.1 + (samples.map TickSample.ioOpsDelta).sum := by
    intro samples
    induction samples with
    | nil => intro sums; exact le_rfl
    | cons sample samples ih =>
      intro sums
      have hsat : satAdd sums.1 sample.ioOpsDelta ≤ sums.1 + sample.ioOpsDelta := min_le_left _ _
      have hrest := ih (satAdd sums.1 sample.ioOpsDelta, satAdd sums.2.1 sample.cpuNsDelta,
        satAdd sums.2.2 sample.wallDtNs)
      simp only [List.foldl_cons, List.map_cons, List.sum_cons]
      dsimp only at hrest
      omega
  unfold RollingMetrics.totals at h
  obtain ⟨newest, -, hsums⟩ := Option.map_eq_some_iff.1 h
  have hle := hfold (m.samples.filter fun sample => newest.wallTs < window ∨ newest.wallTs - window ≤ sample.wallTs)
    (0, 0, 0)
  rw [hsums] at hle
  calc ioOps ≤ 0 + _ := hle
    _ = _ := Nat.zero_add _
    _ ≤ m.operations := (List.filter_sublist.map _).sum_le_sum fun _ _ => Nat.zero_le _

theorem Appends.operations_le {m m' : RollingMetrics} {delta : ℕ} (h : Appends m delta m') :
    m'.operations ≤ m.operations + delta := by
  obtain ⟨sample, dropped, rfl, hs⟩ := h
  have hsum := congrArg (fun l : List TickSample => (l.map TickSample.ioOpsDelta).sum) hs
  simp only [List.map_append, List.sum_append, List.map_cons, List.map_nil, List.sum_cons, List.sum_nil] at hsum
  unfold RollingMetrics.operations
  omega

/-- the history counts at most the increase since the first counted snapshot -/
structure Bounded (x : InstanceStatus × SnapshotHistory) : Prop extends Tracks x where
  first_le : ioTotal x.2.first ≤ ioTotal x.2.last
  operations_le : x.1.rolling.operations ≤ ioTotal x.2.last - ioTotal x.2.first

theorem step_bounded {x : InstanceStatus × SnapshotHistory} {e : StatusEvent} (h : Bounded x)
    (hmono : NonDecreasing x e) (hspike : NoSpike x e) : Bounded (snapshotStep x e) := by
  have htracks := step_tracks h.toTracks hmono
  cases e with
  | act threadCount cooldownUntil sticky classification => exact ⟨htracks, h.first_le, h.operations_le⟩
  | refresh refreshCgroup env snapshot =>
    have hfirst := h.first_le
    have hops := h.operations_le
    -- the new interval is at most the increase since the latest counted snapshot
    have hgrow : (snapshotStep x (.refresh refreshCgroup env snapshot)).1.rolling.operations ≤
        x.1.rolling.operations + if x.2.last.isSome then ioTotal snapshot.perf - ioTotal x.2.last else 0 := by
      have hroll := (refresh_rolling refreshCgroup env x.1 snapshot).2
      cases hd : appendedDelta env x.1 snapshot with
      | none =>
        rw [hd] at hroll
        have hsame : (snapshotStep x (.refresh refreshCgroup env snapshot)).1.rolling.operations =
            x.1.rolling.operations := congrArg (fun l => (l.map TickSample.ioOpsDelta).sum) hroll
        rw [hsame]
        exact Nat.le_add_right _ _
      | some delta =>
        rw [hd] at hroll
        have hdelta := hspike.2 delta hd
        exact hroll.operations_le.trans (Nat.add_le_add_left hdelta _)
    have hfl := h.first_last
    suffices hnew : ioTotal (x.2.first.or snapshot.perf) ≤ ioTotal (snapshot.perf.or x.2.last) ∧
        x.1.rolling.operations + (if x.2.last.isSome then ioTotal snapshot.perf - ioTotal x.2.last else 0) ≤
          ioTotal (snapshot.perf.or x.2.last) - ioTotal (x.2.first.or snapshot.perf) from
      ⟨htracks, hnew.1, hgrow.trans hnew.2⟩
    cases hlast : x.2.last with
    | none =>
      -- nothing was counted yet: this snapshot is the first and the last counted one
      rw [hlast] at hfl hops
      have hnone : x.2.first = none := by simpa using hfl
      have hzero : x.1.rolling.operations = 0 := Nat.le_zero.1 (hops.trans (Nat.sub_le _ _))
      rw [hnone, hzero]
      simp
    | some q =>
      rw [hlast] at hfl hfirst hops
      obtain ⟨p, hp⟩ := Option.isSome_iff_exists.1 hfl
      rw [hp] at hfirst hops ⊢
      cases hperf : snapshot.perf with
      | none =>
        refine ⟨hfirst, ?_⟩
        have hzero : ioTotal none - ioTotal (some q) = 0 := Nat.zero_sub _
        simpa [hzero] using hops
      | some r =>
        have hle := ioTotal_last_le hmono (by rw [hperf]; rfl)
        rw [hlast, hperf] at hle
        refine ⟨hfirst.trans hle, ?_⟩
        simp only [Option.isSome_some, if_true, Option.some_or]
        omega

theorem new_bounded (d : Discovered) : Bounded ((Instance.new d).status, {}) :=
  ⟨new_tracks d, le_rfl, le_rfl⟩

theorem windows_bounded {x : InstanceStatus × SnapshotHistory} (h : Bounded x) : WindowsBounded x :=
  fun _ _ _ _ htotals => (totals_le x.1.rolling htotals).trans h.operations_le

/-- with non-decreasing counters, snapshots without counters manufacture no operations exactly when every counted snapshot
continues from the latest counted one -/
theorem no_spike_iff (d : Discovered) {es : List StatusEvent}
    (hmono : Core.Along snapshotStep NonDecreasing ((Instance.new d).status, {}) es) :
    Core.Along snapshotStep (fun x e => NoSpike x e ∧ WindowsBounded (snapshotStep x e))
        ((Instance.new d).status, {}) es ↔
      Core.Along snapshotStep Continues ((Instance.new d).status, {}) es := by
  have hsteps : Core.Along snapshotStep NoSpike ((Instance.new d).status, {}) es ↔
      Core.Along snapshotStep Continues ((Instance.new d).status, {}) es := by
    apply Core.along_iff_of_inv Tracks _ _ (new_tracks d) hmono
    · intro x e h hx
      exact step_tracks h hx
    · intro x e h hx
      exact noSpike_iff h hx
  constructor
  · intro h
    exact hsteps.1 (h.imp fun _ _ hx => hx.1)
  · intro h
    have hspared := hsteps.2 h
    -- the bound on the history accumulates the bounds on its intervals
    apply Core.along_of_inv Bounded _ _ (new_bounded d) (hmono.and hspared)
    · intro x e hx hc
      exact step_bounded hx hc.1 hc.2
    · intro x e hx hc
      exact ⟨hc.2, windows_bounded (step_bounded hx hc.1 hc.2)⟩

/-- a snapshot with a backend utilisation, taken at `secs` -/
def utilSnapshot (secs : ℕ) (perf : Option InstancePerfSample) : StatusEvent :=
  .refresh false { snapshot := .error "", now := fromSecs secs }
    { threadCount := 4, vcpuCount := 8, perf := perf, perThreadUtil := some 0 }

theorem no_spike_two : Core.Along snapshotStep (fun x e => NoSpike x e ∧ WindowsBounded (snapshotStep x e))
    ((Instance.new ⟨"vm", 0⟩).status, {})
    [utilSnapshot 10 (some { readIoCount := 1000 }), utilSnapshot 20 (some { readIoCount := 1010 }),
      utilSnapshot 30 none] := by
  refine (no_spike_iff ⟨"vm", 0⟩ ?_).2 ?_
  · refine ⟨fun _ c => ?_, fun _ c => ?_, fun h => ?_, trivial⟩
    · exact (PerfCounter.of_none c).trans_le (Nat.zero_le _)
    · cases c <;> decide
    · simp at h
  · refine ⟨fun _ => ⟨fun t h => ?_, fun t start ticks h => ?_⟩, fun _ => ⟨fun t h => ?_, fun t start ticks h => ?_⟩,
      fun h => ?_, trivial⟩
    · cases h
    · cases h
    · cases h
    · cases h
      decide
    · cases h

/-- one snapshot without counters, and the next interval counts every operation since the VM started -/
theorem counterless_spike : ¬ ∀ (d : Discovered) (es : List StatusEvent),
    Core.Along snapshotStep NonDecreasing ((Instance.new d).status, {}) es →
    Core.Along snapshotStep (fun x e => NoSpike x e ∧ WindowsBounded (snapshotStep x e))
      ((Instance.new d).status, {}) es := by
  intro hevery
  have h := hevery ⟨"vm", 0⟩ [utilSnapshot 10 (some { readIoCount := 1000 }), utilSnapshot 20 none,
    utilSnapshot 30 (some { readIoCount := 1010 })] ?_
  · obtain ⟨-, -, ⟨⟨-, hthird⟩, -⟩, -⟩ := h
    have hdelta : 1010 ≤ 10 := hthird 1010 (by decide)
    simp at hdelta
  · refine ⟨fun _ c => ?_, fun h => ?_, fun _ c => ?_, trivial⟩
    · exact (PerfCounter.of_none c).trans_le (Nat.zero_le _)
    · simp at h
    · cases c <;> decide

end IoThreadController
