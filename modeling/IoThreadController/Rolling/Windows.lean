/-
What a rolling window covers.

A sample is stamped when its interval ends, and `totals` counts a sample when its stamp is inside the window. So an
interval that began before the window counts in full when it ended inside.

- `window_covers_iff`: a window covers no more than its length exactly when no counted interval began before it.
- `periodic_window_overrun`: with evenly spaced polls there is such an interval as soon as the history is longer than the
  window, whatever the period.
- `minute_covers_seventy_seconds`: polls every ten seconds, and a 1m figure over seventy seconds.
-/
import IoThreadController.Rolling.History

namespace IoThreadController

open IoThreadController.Core (consecutive)

/-! ## The condition -/

/-- no recorded interval ended inside the window and began before it -/
def NoneStraddles (calls : List Push) (window : ℕ) : Prop :=
  ∀ last, lastRecorded calls = some last → ∀ a b, (a, b) ∈ consecutive calls → a.Records b →
    last.now ≤ b.now + maxWindow → last.now ≤ b.now + window → last.now + min (b.now - a.now) u64Max ≤ b.now + window

/-- the counted intervals lie inside the last `window` before the newest sample -/
structure WindowCovers (m : RollingMetrics) (window : ℕ) : Prop where
  inside : ∀ newest ∈ m.samples.getLast?, ∀ s ∈ m.counted window, newest.wallTs ≤ s.wallTs - s.wallDtNs + window
  sum_le : ((m.counted window).map TickSample.wallDtNs).sum ≤ window

variable {ticksPerSecond : ℕ} {calls : List Push} {window : ℕ}

namespace Push

theorem wallDtNs_le_now (a b : Push) : wallDtNs a b ≤ b.now := (wallDtNs_le a b).trans (Nat.sub_le _ _)

end Push

theorem replay_newest_now (h : InOrder calls) {newest : TickSample}
    (hnewest : newest ∈ (replay ticksPerSecond calls).samples.getLast?) :
    ∃ last, lastRecorded calls = some last ∧ newest.wallTs = last.now := by
  rw [replay_newest ticksPerSecond h] at hnewest
  obtain ⟨p, hp, rfl⟩ := Option.map_eq_some_iff.1 hnewest
  exact ⟨p.2, by rw [lastRecorded, hp]; rfl, rfl⟩

/-- the counted samples, in terms of the calls -/
theorem mem_counted (h : InOrder calls) {s : TickSample} :
    s ∈ (replay ticksPerSecond calls).counted window ↔ ∃ last, lastRecorded calls = some last ∧
      ∃ a b, (a, b) ∈ consecutive calls ∧ a.Records b ∧ last.now ≤ b.now + maxWindow ∧ last.now ≤ b.now + window ∧
        s = Push.sample ticksPerSecond a b := by
  have hsamples := replay_samples ticksPerSecond h
  unfold RollingMetrics.counted
  rw [List.mem_filter]
  cases hnewest : (replay ticksPerSecond calls).samples.getLast? with
  | none =>
    have hnone : lastRecorded calls = none := by
      rw [replay_newest ticksPerSecond h, Option.map_eq_none_iff] at hnewest
      rw [lastRecorded, hnewest]
      rfl
    rw [List.getLast?_eq_none_iff.1 hnewest]
    simp [hnone]
  | some newest =>
    obtain ⟨last, hlast, hnow⟩ := replay_newest_now h hnewest
    rw [hsamples, List.mem_map, Option.all_some, decide_eq_true_eq, hnow]
    constructor
    · rintro ⟨⟨p, hp, rfl⟩, hin⟩
      obtain ⟨hrec, hkeep⟩ := mem_retainedPairs.1 hp
      obtain ⟨hmem, hrec⟩ := mem_recordedPairs.1 hrec
      exact ⟨last, hlast, p.1, p.2, hmem, hrec, hkeep last hlast, hin, rfl⟩
    · rintro ⟨last', hlast', a, b, hmem, hrec, hkeep, hin, rfl⟩
      obtain rfl : last' = last := Option.some.inj (hlast'.symm.trans hlast)
      refine ⟨⟨(a, b), mem_retainedPairs.2 ⟨mem_recordedPairs.2 ⟨hmem, hrec⟩, ?_⟩, rfl⟩, hin⟩
      rintro _ hlast''
      obtain rfl := Option.some.inj (hlast''.symm.trans hlast)
      exact hkeep

/-- intervals inside a window are together no longer than the window -/
theorem sum_wallDtNs_le (h : InOrder calls)
    (hinside : ∀ newest ∈ (replay ticksPerSecond calls).samples.getLast?,
      ∀ s ∈ (replay ticksPerSecond calls).counted window, newest.wallTs ≤ s.wallTs - s.wallDtNs + window) :
    (((replay ticksPerSecond calls).counted window).map TickSample.wallDtNs).sum ≤ window := by
  cases hnewest : (replay ticksPerSecond calls).samples.getLast? with
  | none =>
    have hnil : (replay ticksPerSecond calls).counted window = [] := by
      rw [RollingMetrics.counted, List.getLast?_eq_none_iff.1 hnewest]
      rfl
    rw [hnil]
    exact Nat.zero_le _
  | some newest =>
    have honce := history_counts_once ticksPerSecond h
    have hsub : ((replay ticksPerSecond calls).counted window).Sublist (replay ticksPerSecond calls).samples :=
      List.filter_sublist
    have hlen : ∀ s ∈ (replay ticksPerSecond calls).counted window, s.wallDtNs ≤ s.wallTs := by
      intro s hs
      obtain ⟨-, -, a, b, -, -, -, -, rfl⟩ := (mem_counted h).1 hs
      exact Push.wallDtNs_le_now a b
    have hlatest : ∀ s ∈ (replay ticksPerSecond calls).counted window, s.wallTs ≤ newest.wallTs := by
      intro s hs
      obtain ⟨front, hfront⟩ := List.getLast?_eq_some_iff.1 hnewest
      have hmem := hsub.subset hs
      have hordered := honce.ordered
      rw [hfront] at hmem hordered
      rcases List.mem_append.1 hmem with hs | hs
      · exact (List.pairwise_append.1 hordered).2.2 s hs newest List.mem_cons_self
      · rw [List.mem_singleton.1 hs]
    calc (((replay ticksPerSecond calls).counted window).map TickSample.wallDtNs).sum
        = (((replay ticksPerSecond calls).counted window).map fun s => s.wallTs - (s.wallTs - s.wallDtNs)).sum :=
          congrArg List.sum (List.map_congr_left fun s hs => (Nat.sub_sub_self (hlen s hs)).symm)
      _ ≤ newest.wallTs - (newest.wallTs - window) := by
          apply Core.sum_length_le (fun s : TickSample => s.wallTs - s.wallDtNs) TickSample.wallTs
            (honce.apart.sublist hsub)
          · exact fun s _ => Nat.sub_le _ _
          · exact fun s hs => tsub_le_iff_right.2 (hinside newest hnewest s hs)
          · exact hlatest
      _ ≤ window := tsub_tsub_le

/-- an interval of length `d` that ended at `stop` began inside the window before `newest` -/
theorem began_inside_iff {newest stop d window : ℕ} (h : d ≤ stop) :
    newest ≤ stop - d + window ↔ newest + d ≤ stop + window := by
  omega

/-- for every history of calls in time order and every window -/
theorem window_covers_iff (ticksPerSecond : ℕ) {calls : List Push} {window : ℕ} (h : InOrder calls) :
    WindowCovers (replay ticksPerSecond calls) window ↔ NoneStraddles calls window := by
  have hnewest (last : Push) (hlast : lastRecorded calls = some last) :
      ∃ newest ∈ (replay ticksPerSecond calls).samples.getLast?, newest.wallTs = last.now := by
    obtain ⟨p, hp, rfl⟩ := Option.map_eq_some_iff.1 hlast
    exact ⟨sampleOf ticksPerSecond p, by rw [replay_newest ticksPerSecond h, hp]; rfl, rfl⟩
  constructor
  · intro hcovers last hlast a b hmem hrec hkeep hin
    obtain ⟨newest, hmemNewest, hnow⟩ := hnewest last hlast
    have hinside := hcovers.inside newest hmemNewest _
      ((mem_counted h).2 ⟨last, hlast, a, b, hmem, hrec, hkeep, hin, rfl⟩)
    rw [hnow] at hinside
    exact (began_inside_iff (Push.wallDtNs_le_now a b)).1 hinside
  · intro hnone
    have hinside : ∀ newest ∈ (replay ticksPerSecond calls).samples.getLast?,
        ∀ s ∈ (replay ticksPerSecond calls).counted window, newest.wallTs ≤ s.wallTs - s.wallDtNs + window := by
      intro newest hmemNewest s hs
      obtain ⟨last, hlast, a, b, hmem, hrec, hkeep, hin, rfl⟩ := (mem_counted h).1 hs
      obtain ⟨last', hlast', hnow⟩ := replay_newest_now h hmemNewest
      obtain rfl : last' = last := Option.some.inj (hlast'.symm.trans hlast)
      rw [hnow]
      exact (began_inside_iff (Push.wallDtNs_le_now a b)).2 (hnone _ hlast a b hmem hrec hkeep hin)
    exact ⟨hinside, sum_wallDtNs_le h hinside⟩

/-- one interval, inside a window of a minute -/
theorem window_covers_iff_short :
    WindowCovers (replay 100 [.procfs 0 10 7, .procfs 9 60 8]) (fromSecs 60) ↔
      NoneStraddles [.procfs 0 10 7, .procfs 9 60 8] (fromSecs 60) :=
  window_covers_iff 100 (by simp [InOrder, Push.now])

/-! ## Evenly spaced polls -/

/-- polls `period` apart, each of which records its interval -/
def Periodic (period : ℕ) (calls : List Push) : Prop :=
  calls.IsChain fun a b => b.now = a.now + period ∧ a.Records b

theorem Periodic.getLast_now {period : ℕ} {b : Push} {rest : List Push} (h : Periodic period (b :: rest)) {last : Push}
    (hlast : (b :: rest).getLast? = some last) : last.now = b.now + rest.length * period := by
  induction rest generalizing b with
  | nil =>
    obtain rfl : b = last := Option.some.inj hlast
    simp
  | cons c rest ih =>
    obtain ⟨⟨hnow, -⟩, hrest⟩ := List.isChain_cons_cons.1 h
    rw [List.getLast?_cons_cons] at hlast
    have hlen : (rest.length + 1) * period = rest.length * period + period := Nat.succ_mul _ _
    have hrec := ih hrest hlast
    rw [hnow] at hrec
    rw [List.length_cons, hlen, hrec, Nat.add_assoc, Nat.add_comm period]

theorem Periodic.recordedPairs {period : ℕ} (h : Periodic period calls) : recordedPairs calls = consecutive calls :=
  List.filter_eq_self.2 fun _ hp => decide_eq_true (Core.rel_of_mem_consecutive h hp).2

/-- whatever the period, a history longer than the window has an interval that straddles the window's start -/
theorem periodic_window_overrun {period : ℕ} (hperiod : 0 < period) (hclamp : period ≤ u64Max)
    (h : Periodic period calls) (hw : window ≤ maxWindow) (hlong : window < (calls.length - 1) * period) :
    ¬ NoneStraddles calls window := by
  intro hnone
  -- `b` is the oldest call inside the window, `k` periods before the last one
  obtain ⟨k, hk⟩ : ∃ k, k = window / period := ⟨_, rfl⟩
  have hkle : k * period ≤ window := by
    rw [hk]
    exact Nat.div_mul_le_self window period
  have hklt : window < (k + 1) * period := by
    rw [hk]
    exact Nat.lt_mul_of_div_lt (Nat.lt_succ_self _) hperiod
  have hkn : k < calls.length - 1 := lt_of_mul_lt_mul_right (hkle.trans_lt hlong) (Nat.zero_le period)
  obtain ⟨older, a, b, rest, hcalls, hrest⟩ := Core.exists_pair_before hkn
  obtain ⟨last, hlast⟩ : ∃ last, (b :: rest).getLast? = some last := ⟨_, List.getLast?_eq_getLast_of_ne_nil (by simp)⟩
  have hrecorded : lastRecorded calls = some last := by
    rw [lastRecorded, h.recordedPairs, hcalls, Core.getLast?_consecutive, hlast]
  have hmem : (a, b) ∈ consecutive calls := by
    rw [hcalls, Core.consecutive_append]
    exact List.mem_append_right _ List.mem_cons_self
  have htail : Periodic period (a :: b :: rest) := by
    rw [Periodic, hcalls] at h
    exact (List.isChain_append.1 h).2.1
  obtain ⟨⟨hab, hrec⟩, hbrest⟩ := List.isChain_cons_cons.1 htail
  have hnow : last.now = b.now + k * period := by
    rw [← hrest]
    exact Periodic.getLast_now hbrest hlast
  have hin : last.now ≤ b.now + window := hnow.le.trans (Nat.add_le_add_left hkle _)
  have hlength : b.now - a.now = period := Nat.sub_eq_of_eq_add' hab
  have hover : b.now + (k + 1) * period ≤ b.now + window := by
    calc b.now + (k + 1) * period = last.now + min (b.now - a.now) u64Max := by
          rw [hlength, min_eq_left hclamp, hnow, Nat.succ_mul, Nat.add_assoc]
      _ ≤ b.now + window :=
          hnone last hrecorded a b hmem hrec (hin.trans (Nat.add_le_add_left hw _)) hin
  exact absurd (Nat.le_of_add_le_add_left hover) (not_le.2 hklt)

/-- eight polls, ten seconds apart: the 1m figure averages over seventy seconds -/
theorem minute_covers_seventy_seconds :
    let calls : List Push := (List.range 8).map fun i => .procfs (fromSecs (10 * i)) (100 * i) (5 * i)
    InOrder calls ∧ ((replay 100 calls).totals (fromSecs 60)).map (fun sums => sums.2.2) = some (fromSecs 70) ∧
      ¬ WindowCovers (replay 100 calls) (fromSecs 60) := by
  intro calls
  have hsum : (((replay 100 calls).counted (fromSecs 60)).map TickSample.wallDtNs).sum = fromSecs 70 := by
    decide +kernel
  refine ⟨by unfold InOrder; decide +kernel, by decide +kernel, fun h => ?_⟩
  have hle := h.sum_le
  rw [hsum] at hle
  exact absurd hle (by decide)

end IoThreadController
