/-
The I/O counters of a QEMU snapshot: from the reply to `query-blockstats` to the totals that validation compares.

The counters of the devices are added with saturation, flushes and unmaps first among themselves. All of it comes to one
bound on the exact sums, so the order of the devices does not matter and a total decreases only if a device disappears or
its counters do.

- `DeviceDoc`: a JSON document that describes one device, in whatever order and among whatever other keys.
- `addDevice_capped`: one device added to sums that are cut off at the largest `u64`.
- `blockstats_counted`: two replies of which the later one has every device of the earlier one with counters at least as
  large.
-/
import IoThreadController.Model.Session
import IoThreadController.Qemu.Envelope

namespace IoThreadController

open IoThreadController.Core (Json)

/-! ## Documents -/

/-- the counter has this value; one that is left out is zero -/
def CounterDoc (counters : Members) (key : String) (value : ℕ) : Prop :=
  value ≤ u64Max ∧ (counters.lookup key = some (.scalar (.number value)) ∨ counters.lookup key = none ∧ value = 0)

/-- the document of a device with these counters -/
def DeviceDoc (doc : JsonValue) (stats : BlockStats) : Prop :=
  ∃ members counters, doc = .object members ∧ DistinctKeys members ∧ DistinctKeys counters ∧
    members.lookup "stats" = some (.object counters) ∧
    CounterDoc counters "rd_bytes" stats.rdBytes ∧ CounterDoc counters "wr_bytes" stats.wrBytes ∧
    CounterDoc counters "rd_operations" stats.rdOperations ∧ CounterDoc counters "wr_operations" stats.wrOperations ∧
    CounterDoc counters "flush_operations" stats.flushOperations ∧
    CounterDoc counters "unmap_operations" stats.unmapOperations

theorem counterDoc_of_number {counters : Members} {key : String} {value : ℕ}
    (h : counters.lookup key = some (.scalar (.number value))) (hle : value ≤ u64Max) : CounterDoc counters key value :=
  ⟨hle, Or.inl h⟩

theorem counterDoc_of_none {counters : Members} {key : String} (h : counters.lookup key = none) :
    CounterDoc counters key 0 := ⟨Nat.zero_le _, Or.inr ⟨h, rfl⟩⟩

theorem readU64_number {n : ℕ} (h : n ≤ u64Max) : readU64 (.scalar (.number n)) = some n := by
  have hcond : ((n : ℚ)).den = 1 ∧ 0 ≤ ((n : ℚ)).num ∧ ((n : ℚ)).num.toNat ≤ u64Max := by
    rw [Rat.den_natCast, Rat.num_natCast]
    exact ⟨rfl, Int.natCast_nonneg n, by simpa using h⟩
  unfold readU64
  dsimp only
  rw [if_pos hcond, Rat.num_natCast]
  rfl

theorem readCounter_doc {counters : Members} (hkeys : DistinctKeys counters) {key : String} {value : ℕ}
    (h : CounterDoc counters key value) : readCounter counters key = some value := by
  unfold readCounter
  rw [readField_eq_lookup hkeys, Option.bind_some]
  rcases h.2 with hlookup | ⟨hlookup, rfl⟩
  · rw [hlookup, Option.elim_some, readU64_number h.1]
  · rw [hlookup, Option.elim_none]

theorem readEntry_doc {doc : JsonValue} {stats : BlockStats} (h : DeviceDoc doc stats) :
    BlockStats.readEntry doc = some stats := by
  obtain ⟨members, counters, rfl, hmembers, hcounters, hstats, hrb, hwb, hro, hwo, hfo, huo⟩ := h
  unfold BlockStats.readEntry
  dsimp only
  rw [readField_eq_lookup hmembers, hstats, Option.join_some, Option.bind_some]
  unfold BlockStats.read
  dsimp only
  rw [readCounter_doc hcounters hrb, readCounter_doc hcounters hwb, readCounter_doc hcounters hro,
    readCounter_doc hcounters hwo, readCounter_doc hcounters hfo, readCounter_doc hcounters huo]
  rfl

theorem mapM_readEntry {docs : List JsonValue} {entries : List BlockStats} (h : List.Forall₂ DeviceDoc docs entries) :
    docs.mapM BlockStats.readEntry = some entries := by
  induction h with
  | nil => rfl
  | cons hdoc _ ih =>
    rw [List.mapM_cons, readEntry_doc hdoc, ih]
    rfl

theorem parseBlockstats_docs (message : JsonValue → String) {docs : List JsonValue} {entries : List BlockStats}
    (h : List.Forall₂ DeviceDoc docs entries) :
    parseBlockstats message (.array docs) = .ok (sumBlockstats entries) := by
  unfold parseBlockstats readEntries
  dsimp only
  rw [mapM_readEntry h]

/-! ## Sums -/

namespace BlockStats

/-- flushes and unmaps -/
def otherOperations (stats : BlockStats) : ℕ := stats.flushOperations + stats.unmapOperations

/-- every operation -/
def operations (stats : BlockStats) : ℕ := stats.rdOperations + stats.wrOperations + stats.otherOperations

/-- the exact sum of one counter over the devices -/
def total (counter : BlockStats → ℕ) (entries : List BlockStats) : ℕ := (entries.map counter).sum

/-- no counter of the device has decreased -/
structure Grows (before after : BlockStats) : Prop where
  rdBytes : before.rdBytes ≤ after.rdBytes
  wrBytes : before.wrBytes ≤ after.wrBytes
  rdOperations : before.rdOperations ≤ after.rdOperations
  wrOperations : before.wrOperations ≤ after.wrOperations
  flushOperations : before.flushOperations ≤ after.flushOperations
  unmapOperations : before.unmapOperations ≤ after.unmapOperations

/-- the later reply has every device of the earlier one, grown, in any order and beside new ones -/
def AllGrow (before after : List BlockStats) : Prop :=
  ∃ grown new, after.Perm (grown ++ new) ∧ List.Forall₂ Grows before grown

end BlockStats

/-- sums cut off at the largest `u64` -/
def capped (reads writes others readBytes writeBytes : ℕ) : InstancePerfSample where
  readIoCount := min reads u64Max
  writeIoCount := min writes u64Max
  otherIoCount := min others u64Max
  readBytesTotal := min readBytes u64Max
  writeBytesTotal := min writeBytes u64Max

theorem addDevice_capped (reads writes others readBytes writeBytes : ℕ) (stats : BlockStats) :
    (capped reads writes others readBytes writeBytes).addDevice stats =
      capped (reads + stats.rdOperations) (writes + stats.wrOperations) (others + stats.otherOperations)
        (readBytes + stats.rdBytes) (writeBytes + stats.wrBytes) := by
  have hother : satAdd (min others u64Max) (satAdd stats.flushOperations stats.unmapOperations) =
      min (others + stats.otherOperations) u64Max := by
    unfold satAdd BlockStats.otherOperations
    omega
  simp only [InstancePerfSample.addDevice, capped, satAdd_min, hother]

theorem foldl_addDevice (entries : List BlockStats) (reads writes others readBytes writeBytes : ℕ) :
    entries.foldl InstancePerfSample.addDevice (capped reads writes others readBytes writeBytes) =
      capped (reads + BlockStats.total BlockStats.rdOperations entries)
        (writes + BlockStats.total BlockStats.wrOperations entries)
        (others + BlockStats.total BlockStats.otherOperations entries)
        (readBytes + BlockStats.total BlockStats.rdBytes entries)
        (writeBytes + BlockStats.total BlockStats.wrBytes entries) := by
  induction entries generalizing reads writes others readBytes writeBytes with
  | nil => rfl
  | cons stats entries ih =>
    rw [List.foldl_cons, addDevice_capped, ih]
    simp only [BlockStats.total, List.map_cons, List.sum_cons, Nat.add_assoc]

theorem sumBlockstats_eq {entries : List BlockStats} (h : entries ≠ []) :
    sumBlockstats entries = some (capped (BlockStats.total BlockStats.rdOperations entries)
      (BlockStats.total BlockStats.wrOperations entries) (BlockStats.total BlockStats.otherOperations entries)
      (BlockStats.total BlockStats.rdBytes entries) (BlockStats.total BlockStats.wrBytes entries)) := by
  have hfold := foldl_addDevice entries 0 0 0 0 0
  simp only [Nat.zero_add] at hfold
  unfold sumBlockstats
  rw [if_neg h]
  exact congrArg some hfold

/-- cutting off before and after the last additions is cutting off once -/
theorem totalIoCount_capped (reads writes others readBytes writeBytes : ℕ) :
    (capped reads writes others readBytes writeBytes).totalIoCount = min (reads + writes + others) u64Max := by
  unfold InstancePerfSample.totalIoCount capped satAdd
  dsimp only
  omega

theorem total_operations (entries : List BlockStats) :
    BlockStats.total BlockStats.operations entries =
      BlockStats.total BlockStats.rdOperations entries + BlockStats.total BlockStats.wrOperations entries +
        BlockStats.total BlockStats.otherOperations entries := by
  induction entries with
  | nil => rfl
  | cons stats entries ih =>
    simp only [BlockStats.total, List.map_cons, List.sum_cons, BlockStats.operations] at ih ⊢
    omega

theorem total_le {before after : List BlockStats} (h : BlockStats.AllGrow before after) {counter : BlockStats → ℕ}
    (hcounter : ∀ {a b}, BlockStats.Grows a b → counter a ≤ counter b) :
    BlockStats.total counter before ≤ BlockStats.total counter after := by
  obtain ⟨grown, new, hperm, hgrown⟩ := h
  have hle : BlockStats.total counter before ≤ BlockStats.total counter grown := by
    unfold BlockStats.total
    exact List.Forall₂.sum_le_sum (List.forall₂_map_left_iff.2 (List.forall₂_map_right_iff.2 (hgrown.imp fun _ _ => hcounter)))
  have hsum : BlockStats.total counter after = BlockStats.total counter grown + BlockStats.total counter new := by
    unfold BlockStats.total
    rw [(hperm.map counter).sum_eq, List.map_append, List.sum_append]
  omega

/-! ## Two replies -/

/-- what the devices come to: every counter is the exact sum, cut off once at the largest `u64`, and so is the total of the
operations that validation compares -/
structure Counted (entries : List BlockStats) (perf : InstancePerfSample) : Prop where
  reads : perf.readIoCount = min (BlockStats.total BlockStats.rdOperations entries) u64Max
  writes : perf.writeIoCount = min (BlockStats.total BlockStats.wrOperations entries) u64Max
  others : perf.otherIoCount = min (BlockStats.total BlockStats.otherOperations entries) u64Max
  readBytes : perf.readBytesTotal = min (BlockStats.total BlockStats.rdBytes entries) u64Max
  writeBytes : perf.writeBytesTotal = min (BlockStats.total BlockStats.wrBytes entries) u64Max
  operations : ioTotal (some perf) = min (BlockStats.total BlockStats.operations entries) u64Max

/-- no counter of the earlier snapshot is above the later one's -/
structure NoneLost (before after : InstancePerfSample) : Prop where
  reads : before.readIoCount ≤ after.readIoCount
  writes : before.writeIoCount ≤ after.writeIoCount
  others : before.otherIoCount ≤ after.otherIoCount
  readBytes : before.readBytesTotal ≤ after.readBytesTotal
  writeBytes : before.writeBytesTotal ≤ after.writeBytesTotal
  operations : ioTotal (some before) ≤ ioTotal (some after)

theorem counted_of_ne_nil {entries : List BlockStats} (h : entries ≠ []) :
    ∃ perf, sumBlockstats entries = some perf ∧ Counted entries perf := by
  refine ⟨_, sumBlockstats_eq h, rfl, rfl, rfl, rfl, rfl, ?_⟩
  rw [total_operations]
  exact totalIoCount_capped _ _ _ _ _

theorem noneLost_of_allGrow {before after : List BlockStats} {perf perf' : InstancePerfSample} (hb : Counted before perf)
    (ha : Counted after perf') (h : BlockStats.AllGrow before after) : NoneLost perf perf' := by
  have hcut : ∀ {x y : ℕ}, x ≤ y → min x u64Max ≤ min y u64Max := fun hle => min_le_min_right _ hle
  refine ⟨?_, ?_, ?_, ?_, ?_, ?_⟩
  · rw [hb.reads, ha.reads]
    exact hcut (total_le h BlockStats.Grows.rdOperations)
  · rw [hb.writes, ha.writes]
    exact hcut (total_le h BlockStats.Grows.wrOperations)
  · rw [hb.others, ha.others]
    exact hcut (total_le h fun hg => Nat.add_le_add hg.flushOperations hg.unmapOperations)
  · rw [hb.readBytes, ha.readBytes]
    exact hcut (total_le h BlockStats.Grows.rdBytes)
  · rw [hb.writeBytes, ha.writeBytes]
    exact hcut (total_le h BlockStats.Grows.wrBytes)
  · rw [hb.operations, ha.operations]
    refine hcut (total_le h fun hg => ?_)
    exact Nat.add_le_add (Nat.add_le_add hg.rdOperations hg.wrOperations)
      (Nat.add_le_add hg.flushOperations hg.unmapOperations)

theorem blockstats_counted (message : JsonValue → String) {docs docs' : List JsonValue}
    {entries entries' : List BlockStats} (hdocs : List.Forall₂ DeviceDoc docs entries)
    (hdocs' : List.Forall₂ DeviceDoc docs' entries') (hne : entries ≠ []) (hgrow : BlockStats.AllGrow entries entries') :
    ∃ perf perf', parseBlockstats message (.array docs) = .ok (some perf) ∧
      parseBlockstats message (.array docs') = .ok (some perf') ∧ Counted entries perf ∧ Counted entries' perf' ∧
      NoneLost perf perf' := by
  have hne' : entries' ≠ [] := by
    rintro rfl
    obtain ⟨grown, new, hperm, hgrown⟩ := hgrow
    have hgrownNil : grown = [] := (List.append_eq_nil_iff.1 hperm.nil_eq.symm).1
    rw [hgrownNil] at hgrown
    exact hne (List.forall₂_nil_right_iff.1 hgrown)
  obtain ⟨perf, hsum, hcounted⟩ := counted_of_ne_nil hne
  obtain ⟨perf', hsum', hcounted'⟩ := counted_of_ne_nil hne'
  refine ⟨perf, perf', ?_, ?_, hcounted, hcounted', noneLost_of_allGrow hcounted hcounted' hgrow⟩
  · rw [parseBlockstats_docs message hdocs, hsum]
  · rw [parseBlockstats_docs message hdocs', hsum']

/-- a disk as one reply lists it -/
def diskBefore : JsonValue :=
  .object [("device", .scalar (.string "drive0")),
    ("stats", .object [("rd_operations", .scalar (.number 100)), ("flush_operations", .scalar (.number 3))])]

/-- the same disk later, with its keys in another order -/
def diskAfter : JsonValue :=
  .object [("stats", .object [("flush_operations", .scalar (.number 5)), ("rd_operations", .scalar (.number 100))]),
    ("device", .scalar (.string "drive0"))]

/-- a disk that was plugged in between -/
def diskPlugged : JsonValue := .object [("stats", .object [("wr_operations", .scalar (.number 7))])]

theorem blockstats_counted_plugged :
    ∃ perf perf', parseBlockstats (fun _ => "") (.array [diskBefore]) = .ok (some perf) ∧
      parseBlockstats (fun _ => "") (.array [diskPlugged, diskAfter]) = .ok (some perf') ∧
      ioTotal (some perf) = 103 ∧ ioTotal (some perf') = 112 ∧ NoneLost perf perf' := by
  have hbefore : DeviceDoc diskBefore { rdOperations := 100, flushOperations := 3 } := by
    refine ⟨_, _, rfl, by decide, by decide, rfl, counterDoc_of_none rfl, counterDoc_of_none rfl,
      counterDoc_of_number rfl (by decide), counterDoc_of_none rfl,
      counterDoc_of_number rfl (by decide), counterDoc_of_none rfl⟩
  have hafter : DeviceDoc diskAfter { rdOperations := 100, flushOperations := 5 } := by
    refine ⟨_, _, rfl, by decide, by decide, rfl, counterDoc_of_none rfl, counterDoc_of_none rfl,
      counterDoc_of_number rfl (by decide), counterDoc_of_none rfl,
      counterDoc_of_number rfl (by decide), counterDoc_of_none rfl⟩
  have hplugged : DeviceDoc diskPlugged { wrOperations := 7 } := by
    refine ⟨_, _, rfl, by decide, by decide, rfl, counterDoc_of_none rfl, counterDoc_of_none rfl,
      counterDoc_of_none rfl, counterDoc_of_number rfl (by decide),
      counterDoc_of_none rfl, counterDoc_of_none rfl⟩
  obtain ⟨perf, perf', hperf, hperf', hcounted, hcounted', hkept⟩ := blockstats_counted (fun _ => "")
    (.cons hbefore .nil) (.cons hplugged (.cons hafter .nil)) (by decide)
    ⟨[{ rdOperations := 100, flushOperations := 5 }], [{ wrOperations := 7 }], by decide,
      .cons ⟨by decide, by decide, by decide, by decide, by decide, by decide⟩ .nil⟩
  exact ⟨perf, perf', hperf, hperf', hcounted.operations, hcounted'.operations, hkept⟩

end IoThreadController
