/-
The two utilisation estimators: the one of the QEMU backend and the one over `/proc`.

- `survivors`: the tasks of both samples whose counter did not decrease, with their two counters.
- `utils_perm`, `shares_perm`: either loop measures exactly these, each with its share of the time between the samples.
- `estimators_agree`: both estimators give the mean of the shares.
-/
import IoThreadController.Core.Keyed
import IoThreadController.Model.Topology

namespace IoThreadController

open IoThreadController.Core (find?_key_iff find?_key_perm mean mean_perm mean_mem_unit foldl_sum_count)

/-! ## Survivors -/

/-- distinct tasks -/
def DistinctTids (tasks : List TaskCpuSample) : Prop := (tasks.map TaskCpuSample.tid).Nodup

instance (tasks : List TaskCpuSample) : Decidable (DistinctTids tasks) := inferInstanceAs (Decidable (List.Nodup _))

/-- a task of both samples has one name -/
def NamesUnchanged (previous current : List TaskCpuSample) : Prop :=
  ∀ a ∈ previous, ∀ b ∈ current, a.tid = b.tid → a.name = b.name

instance (previous current : List TaskCpuSample) : Decidable (NamesUnchanged previous current) :=
  inferInstanceAs (Decidable (∀ a ∈ previous, ∀ b ∈ current, _))

/-- the tasks of both samples whose counter did not decrease -/
def survivors (previous current : List TaskCpuSample) : List (TaskCpuSample × TaskCpuSample) :=
  (previous.product current).filter fun p => p.1.tid = p.2.tid ∧ p.1.cpuTicks ≤ p.2.cpuTicks

/-- the share of `ticks` that a task ran, at most all of it -/
def share (ticks : ℚ) (p : TaskCpuSample × TaskCpuSample) : ℚ :=
  min 1 (((p.2.cpuTicks - p.1.cpuTicks : ℕ) : ℚ) / ticks)

def shares (ticks : ℚ) (previous current : List TaskCpuSample) : List ℚ := (survivors previous current).map (share ticks)

/-- the earlier sample of a task -/
def earlier (previous : List TaskCpuSample) (task : TaskCpuSample) : Option TaskCpuSample :=
  (previous.find? fun a => a.tid = task.tid).filter fun a => a.cpuTicks ≤ task.cpuTicks

theorem share_mem_unit {ticks : ℚ} (h : 0 < ticks) (p : TaskCpuSample × TaskCpuSample) :
    0 ≤ share ticks p ∧ share ticks p ≤ 1 :=
  ⟨le_min zero_le_one (div_nonneg (Nat.cast_nonneg _) h.le), min_le_left _ _⟩

theorem clampUnit_eq_share {ticks : ℚ} (h : 0 < ticks) (p : TaskCpuSample × TaskCpuSample) :
    clampUnit (((p.2.cpuTicks - p.1.cpuTicks : ℕ) : ℚ) / ticks) = share ticks p := by
  have hnonneg : ¬ ((p.2.cpuTicks - p.1.cpuTicks : ℕ) : ℚ) / ticks < 0 :=
    not_lt.2 (div_nonneg (Nat.cast_nonneg _) h.le)
  unfold clampUnit share
  rw [if_neg hnonneg]
  split_ifs with hone
  · exact (min_eq_left hone.le).symm
  · exact (min_eq_right (not_lt.1 hone)).symm

variable {previous current : List TaskCpuSample}

theorem earlier_iff (h : DistinctTids previous) {a b : TaskCpuSample} :
    earlier previous b = some a ↔ a ∈ previous ∧ a.tid = b.tid ∧ a.cpuTicks ≤ b.cpuTicks := by
  unfold earlier
  rw [Option.filter_eq_some_iff, find?_key_iff h, decide_eq_true_eq, and_assoc]

/-- going through the current tasks meets every survivor once -/
theorem survivors_perm (hprevious : DistinctTids previous) (hcurrent : DistinctTids current) :
    (current.filterMap fun b => (earlier previous b).map fun a => (a, b)).Perm (survivors previous current) := by
  have hnodup : (previous.product current).Nodup := hprevious.of_map.product hcurrent.of_map
  refine (List.perm_ext_iff_of_nodup ?_ (hnodup.filter _)).2 fun p => ?_
  · refine List.Nodup.filterMap ?_ hcurrent.of_map
    intro b b' p hp hp'
    obtain ⟨a, -, rfl⟩ := Option.map_eq_some_iff.1 hp
    obtain ⟨a', -, heq⟩ := Option.map_eq_some_iff.1 hp'
    exact (Prod.ext_iff.1 heq).2.symm
  · obtain ⟨a, b⟩ := p
    rw [List.mem_filter, List.pair_mem_product, List.mem_filterMap]
    constructor
    · rintro ⟨b', hb', hp⟩
      obtain ⟨a', ha', heq⟩ := Option.map_eq_some_iff.1 hp
      cases heq
      obtain ⟨hmem, htid, hticks⟩ := (earlier_iff hprevious).1 ha'
      exact ⟨⟨hmem, hb'⟩, decide_eq_true ⟨htid, hticks⟩⟩
    · rintro ⟨⟨ha, hb⟩, hsurvives⟩
      obtain ⟨htid, hticks⟩ := of_decide_eq_true hsurvives
      refine ⟨b, hb, ?_⟩
      rw [(earlier_iff hprevious).2 ⟨ha, htid, hticks⟩, Option.map_some]

theorem filter_le_some {α : Type*} (f : α → ℕ) (n : ℕ) (a : α) :
    (some a).filter (fun x => f x ≤ n) = if f a ≤ n then some a else none := by
  rw [Option.filter_some]
  simp only [decide_eq_true_eq]

/-! ## The two loops -/

theorem previousByTid_eq (h : DistinctTids previous) (tid : ℤ) :
    previousByTid previous tid = (previous.find? fun a => a.tid = tid).map fun a => (a.name, a.cpuTicks) := by
  unfold previousByTid
  rw [← find?_key_perm h previous.reverse_perm.symm]

/-- the fractions of the `/proc` path -/
theorem utils_perm {ticks : ℚ} (hticks : 0 < ticks) (hprevious : DistinctTids previous)
    (hcurrent : DistinctTids current) (hnames : NamesUnchanged previous current) :
    ((computePerWorkerUtil previous current ticks).map Prod.snd).Perm (shares ticks previous current) := by
  have hloop : (computePerWorkerUtil previous current ticks).map Prod.snd =
      (current.filterMap fun b => (earlier previous b).map fun a => (a, b)).map (share ticks) := by
    unfold computePerWorkerUtil
    rw [List.map_filterMap, List.map_filterMap]
    refine List.filterMap_congr fun b hb => ?_
    rw [previousByTid_eq hprevious]
    unfold earlier
    cases hfind : previous.find? fun a => a.tid = b.tid with
    | none => rfl
    | some a =>
      obtain ⟨ha, htid⟩ := (find?_key_iff hprevious).1 hfind
      have hname := hnames a ha b hb htid
      rw [filter_le_some TaskCpuSample.cpuTicks]
      dsimp only [Option.map_some]
      by_cases hle : a.cpuTicks ≤ b.cpuTicks
      · rw [if_pos hle, if_pos ⟨hname, hle⟩]
        exact congrArg some (clampUnit_eq_share hticks (a, b))
      · rw [if_neg hle, if_neg fun h => hle h.2]
        rfl
  rw [hloop]
  exact (survivors_perm hprevious hcurrent).map (share ticks)

/-- the QEMU backend's sample of these tasks, in whatever order its map keeps them -/
def Samples (sample : QemuCpuSample) (at_ : Instant) (tasks : List TaskCpuSample) : Prop :=
  sample.wall = at_ ∧ sample.jiffies.Perm (tasks.map fun task => (task.tid, task.cpuTicks))

/-- what one entry adds to the total, if it is not skipped -/
def entryShare (ticksPerSecond : ℕ) (elapsed : ℚ) (prev : QemuCpuSample) (entry : ℤ × ℕ) : Option ℚ :=
  ((prev.jiffies.find? fun e => e.1 = entry.1).filter fun e => e.2 ≤ entry.2).map fun e =>
    clampUnit (((entry.2 - e.2 : ℕ) : ℚ) / ticksPerSecond / elapsed)

theorem addShare_eq (ticksPerSecond : ℕ) (elapsed : ℚ) (prev : QemuCpuSample) (acc : ℚ × ℕ) (entry : ℤ × ℕ) :
    QemuCpuSample.addShare ticksPerSecond elapsed prev acc entry =
      (entryShare ticksPerSecond elapsed prev entry).elim acc fun x => (acc.1 + x, acc.2 + 1) := by
  unfold QemuCpuSample.addShare entryShare
  cases prev.jiffies.find? fun e => e.1 = entry.1 with
  | none => rfl
  | some e =>
    rw [filter_le_some Prod.snd]
    dsimp only
    by_cases hle : e.2 ≤ entry.2
    · rw [if_neg (not_lt.2 hle), if_pos hle, Option.map_some, Option.elim_some]
    · rw [if_pos (not_le.1 hle), if_neg hle, Option.map_none, Option.elim_none]

theorem diffJiffiesSample_eq (ticksPerSecond : ℕ) {prev cur : QemuCpuSample} (h : prev.wall < cur.wall) :
    QemuCpuSample.diffJiffiesSample ticksPerSecond prev cur =
      mean (cur.jiffies.filterMap (entryShare ticksPerSecond (asSecs (cur.wall - prev.wall)) prev)) := by
  have hpos : 0 < asSecs (cur.wall - prev.wall) := asSecs_pos (Nat.sub_pos_of_lt h)
  unfold QemuCpuSample.diffJiffiesSample mean
  rw [checkedDurationSince_of_le h.le]
  dsimp only
  rw [if_neg (not_le.2 hpos), foldl_sum_count (addShare_eq ticksPerSecond _ prev)]
  dsimp only
  rw [zero_add, zero_add]
  exact if_congr List.length_eq_zero_iff rfl rfl

theorem find?_samples {sample : QemuCpuSample} {at_ : Instant} (h : Samples sample at_ previous) (tid : ℤ) :
    (sample.jiffies.find? fun e => e.1 = tid) =
      (previous.find? fun a => a.tid = tid).map fun a => (a.tid, a.cpuTicks) := by
  rw [find?_key_perm sample.distinct h.2, List.find?_map]
  rfl

/-- the fractions of the QEMU path -/
theorem shares_perm {ticksPerSecond : ℕ} {elapsed : ℚ} {prev cur : QemuCpuSample} {at_ at' : Instant}
    (hpos : 0 < elapsed * ticksPerSecond) (hprevious : DistinctTids previous) (hcurrent : DistinctTids current)
    (hprev : Samples prev at_ previous) (hcur : Samples cur at' current) :
    (cur.jiffies.filterMap (entryShare ticksPerSecond elapsed prev)).Perm
      (shares (elapsed * ticksPerSecond) previous current) := by
  have hentry (b : TaskCpuSample) : entryShare ticksPerSecond elapsed prev (b.tid, b.cpuTicks) =
      (earlier previous b).map fun a => share (elapsed * ticksPerSecond) (a, b) := by
    unfold entryShare earlier
    rw [find?_samples hprev]
    cases previous.find? fun a => a.tid = b.tid with
    | none => rfl
    | some a =>
      rw [Option.map_some, filter_le_some TaskCpuSample.cpuTicks, filter_le_some Prod.snd]
      by_cases hle : a.cpuTicks ≤ b.cpuTicks
      · rw [if_pos hle, if_pos hle, Option.map_some, Option.map_some, ← clampUnit_eq_share hpos (a, b), div_div,
          mul_comm (ticksPerSecond : ℚ)]
      · rw [if_neg hle, if_neg hle]
        rfl
  calc List.Perm (cur.jiffies.filterMap (entryShare ticksPerSecond elapsed prev))
        ((current.map fun task => (task.tid, task.cpuTicks)).filterMap (entryShare ticksPerSecond elapsed prev)) :=
        hcur.2.filterMap _
    _ = (current.filterMap fun b => (earlier previous b).map fun a => (a, b)).map (share (elapsed * ticksPerSecond)) := by
        rw [List.filterMap_map, List.map_filterMap]
        refine List.filterMap_congr fun b _ => ?_
        rw [Option.map_map]
        exact hentry b
    List.Perm _ (shares (elapsed * ticksPerSecond) previous current) :=
        (survivors_perm hprevious hcurrent).map (share (elapsed * ticksPerSecond))

/-! ## Agreement -/

/-- the tasks of a sample that both samples have and that were not reset -/
def surviving (previous current tasks : List TaskCpuSample) : List TaskCpuSample :=
  tasks.filter fun task => ∃ p ∈ survivors previous current, p.2.tid = task.tid

theorem mem_survivors {a b : TaskCpuSample} :
    (a, b) ∈ survivors previous current ↔
      (a ∈ previous ∧ b ∈ current) ∧ a.tid = b.tid ∧ a.cpuTicks ≤ b.cpuTicks := by
  unfold survivors
  rw [List.mem_filter, List.pair_mem_product, decide_eq_true_eq]

theorem survivors_nodup (hprevious : DistinctTids previous) (hcurrent : DistinctTids current) :
    (survivors previous current).Nodup := (hprevious.of_map.product hcurrent.of_map).filter _

theorem DistinctTids.surviving {tasks : List TaskCpuSample} (h : DistinctTids tasks) :
    DistinctTids (surviving previous current tasks) := List.Nodup.sublist (List.filter_sublist.map _) h

/-- new, vanished and reset tasks leave no trace -/
theorem shares_surviving_perm (ticks : ℚ) (hprevious : DistinctTids previous) (hcurrent : DistinctTids current) :
    (shares ticks (surviving previous current previous) (surviving previous current current)).Perm
      (shares ticks previous current) := by
  refine List.Perm.map _ ((List.perm_ext_iff_of_nodup (survivors_nodup hprevious.surviving hcurrent.surviving)
    (survivors_nodup hprevious hcurrent)).2 fun p => ?_)
  obtain ⟨a, b⟩ := p
  rw [mem_survivors, mem_survivors]
  constructor
  · rintro ⟨⟨ha, hb⟩, h⟩
    exact ⟨⟨List.mem_of_mem_filter ha, List.mem_of_mem_filter hb⟩, h⟩
  · rintro ⟨⟨ha, hb⟩, h⟩
    have hmem : (a, b) ∈ survivors previous current := mem_survivors.2 ⟨⟨ha, hb⟩, h⟩
    refine ⟨⟨List.mem_filter.2 ⟨ha, decide_eq_true ⟨(a, b), hmem, h.1.symm⟩⟩, ?_⟩, h⟩
    exact List.mem_filter.2 ⟨hb, decide_eq_true ⟨(a, b), hmem, rfl⟩⟩

theorem perThreadUtil_eq (status : InstanceStatus) (utils : List (String × ℚ)) :
    (updateWorkerUtilisation status utils).perThreadUtil = mean (utils.map Prod.snd) := rfl

/-- what the two estimators have in common, over an interval of so many clock ticks -/
structure OneUtilisation (status : InstanceStatus) (ticks : ℚ) (previous current : List TaskCpuSample) (util : ℚ) :
    Prop where
  proc : (updateWorkerUtilisation status (computePerWorkerUtil previous current ticks)).perThreadUtil = util
  mean : util = mean (shares ticks previous current)
  unit : 0 ≤ util ∧ util ≤ 1
  /-- neither the sum nor the number of the shares depends on the other tasks -/
  survivors : (shares ticks (surviving previous current previous) (surviving previous current current)).Perm
    (shares ticks previous current)

theorem estimators_agree {ticksPerSecond : ℕ} {before after : CpuSample} {prev cur : QemuCpuSample}
    (status : InstanceStatus) (hhz : 0 < ticksPerSecond) (htime : before.sampledAt < after.sampledAt)
    (hbefore : DistinctTids before.perWorker) (hafter : DistinctTids after.perWorker)
    (hnames : NamesUnchanged before.perWorker after.perWorker)
    (hprev : Samples prev before.sampledAt before.perWorker) (hcur : Samples cur after.sampledAt after.perWorker) :
    wallTicks ticksPerSecond before after = some (asSecs (after.sampledAt - before.sampledAt) * ticksPerSecond) ∧
      OneUtilisation status (asSecs (after.sampledAt - before.sampledAt) * ticksPerSecond) before.perWorker
        after.perWorker (QemuCpuSample.diffJiffiesSample ticksPerSecond prev cur) := by
  have helapsed : 0 < asSecs (after.sampledAt - before.sampledAt) := asSecs_pos (Nat.sub_pos_of_lt htime)
  have hticks : 0 < asSecs (after.sampledAt - before.sampledAt) * ticksPerSecond :=
    mul_pos helapsed (Nat.cast_pos.2 hhz)
  have hqemu : QemuCpuSample.diffJiffiesSample ticksPerSecond prev cur =
      mean (shares (asSecs (after.sampledAt - before.sampledAt) * ticksPerSecond) before.perWorker after.perWorker) := by
    have hwall : prev.wall < cur.wall := by rwa [hprev.1, hcur.1]
    rw [diffJiffiesSample_eq ticksPerSecond hwall, hprev.1, hcur.1]
    exact mean_perm (shares_perm hticks hbefore hafter hprev hcur)
  refine ⟨?_, ?_, hqemu, ?_, shares_surviving_perm _ hbefore hafter⟩
  · unfold wallTicks
    rw [checkedDurationSince_of_le htime.le, Option.map_some]
    exact Option.filter_some_pos (decide_eq_true hticks)
  · rw [hqemu, perThreadUtil_eq]
    exact mean_perm (utils_perm hticks hbefore hafter hnames)
  · rw [hqemu]
    refine mean_mem_unit fun x hx => ?_
    obtain ⟨p, -, rfl⟩ := List.mem_map.1 hx
    exact share_mem_unit hticks p

def workersBefore : CpuSample := ⟨300, 0, [⟨11, "iothread", 100⟩, ⟨12, "iothread", 200⟩, ⟨13, "gone", 0⟩]⟩

def workersAfter : CpuSample :=
  ⟨425, fromSecs 1, [⟨14, "new", 70⟩, ⟨12, "iothread", 225⟩, ⟨11, "iothread", 130⟩]⟩

def jiffiesBefore : QemuCpuSample := ⟨[(13, 0), (12, 200), (11, 100)], by decide, 0⟩

def jiffiesAfter : QemuCpuSample := ⟨[(11, 130), (12, 225), (14, 70)], by decide, fromSecs 1⟩

theorem estimators_agree_two_survivors :
    wallTicks 100 workersBefore workersAfter = some (asSecs (fromSecs 1 - 0) * (100 : ℕ)) ∧
      OneUtilisation {} (asSecs (fromSecs 1 - 0) * (100 : ℕ)) workersBefore.perWorker workersAfter.perWorker
        (QemuCpuSample.diffJiffiesSample 100 jiffiesBefore jiffiesAfter) :=
  estimators_agree {} (by decide) (by decide) (by decide) (by decide) (by decide) ⟨rfl, by decide⟩ ⟨rfl, by decide⟩

end IoThreadController
