/-
The rolling history of one VM as a function of the calls that fed it.

- `Push`, `replay`: the calls of `push_from_procfs_delta` and `push_from_backend_util`, in any mix, and the history after
  them.
- `Records`: whether a call records the interval since the call before. That depends on these two calls only.
- `replay_samples`: the retained samples are those of the recorded intervals, less the ones that ended more than the
  longest window before the newest.
- `history_counts_once`: order, retention, disjoint intervals, exact increases, and the rate over a whole history.
-/
import IoThreadController.Core.Window
import IoThreadController.Model.Rolling

namespace IoThreadController

open IoThreadController.Core (consecutive)

/-! ## Calls -/

/-- one call that feeds the history -/
inductive Push where
  | procfs (now : Instant) (ioOps cpuTicks : ℕ)
  | backend (now : Instant) (ioOps : ℕ) (perThreadUtil : ℚ) (threadCount : ℕ)

namespace Push

def now : Push → Instant
  | procfs now _ _ => now
  | backend now _ _ _ => now

def ioOps : Push → ℕ
  | procfs _ ioOps _ => ioOps
  | backend _ ioOps _ _ => ioOps

/-- the CPU counter of a call, which the backend mode has none of -/
def cpuTicks : Push → Option ℕ
  | procfs _ _ cpuTicks => some cpuTicks
  | backend .. => none

/-- the call `b` records the interval since `a`: no counter that it reads went back, and it has all of them -/
def Records (a b : Push) : Prop :=
  a.ioOps ≤ b.ioOps ∧ (b.cpuTicks.all fun ticks => a.cpuTicks.any fun ticks' => ticks' ≤ ticks) = true

instance : DecidableRel Records := fun _ _ => inferInstanceAs (Decidable (_ ∧ _))

/-- the wall time that an interval is recorded with -/
def wallDtNs (a b : Push) : ℕ := min (b.now - a.now) u64Max

/-- the CPU time that an interval is recorded with -/
def cpuNsDelta (ticksPerSecond : ℕ) (a : Push) : Push → ℕ
  | procfs _ _ cpuTicks =>
    asU64 ⌊((cpuTicks - a.cpuTicks.getD 0 : ℕ) : ℚ) * nanosPerSec / ticksPerSecond⌋
  | b@(backend _ _ perThreadUtil threadCount) => asU64 ⌊(wallDtNs a b : ℚ) * clampUnit perThreadUtil * threadCount⌋

/-- the sample of the interval between two calls -/
def sample (ticksPerSecond : ℕ) (a b : Push) : TickSample :=
  ⟨b.now, b.ioOps - a.ioOps, cpuNsDelta ticksPerSecond a b, wallDtNs a b⟩

end Push

variable (ticksPerSecond : ℕ)

namespace RollingMetrics

def push (m : RollingMetrics) : Push → RollingMetrics
  | .procfs now ioOps cpuTicks => m.pushFromProcfsDelta ticksPerSecond now ioOps cpuTicks
  | .backend now ioOps perThreadUtil threadCount => m.pushFromBackendUtil now ioOps perThreadUtil threadCount

/-- the baseline of the history is what the call `a` left -/
structure Since (m : RollingMetrics) (a : Push) : Prop where
  wallTs : m.previousWallTs = some a.now
  ioOps : m.previousIoOps = some a.ioOps
  cpuTicks : m.previousCpuTicks = a.cpuTicks

/-- what a trim keeps -/
def trimmed (samples : List TickSample) (now : Instant) : List TickSample :=
  if now < maxWindow then samples else samples.dropWhile fun sample => sample.wallTs < now - maxWindow

theorem trim_frame (m : RollingMetrics) (now : Instant) :
    (m.trim now).samples = trimmed m.samples now ∧ (m.trim now).previousWallTs = m.previousWallTs ∧
      (m.trim now).previousIoOps = m.previousIoOps ∧ (m.trim now).previousCpuTicks = m.previousCpuTicks := by
  unfold trim trimmed
  split_ifs
  · exact ⟨rfl, rfl, rfl, rfl⟩
  · exact ⟨rfl, rfl, rfl, rfl⟩

/-- of samples in order, a trim keeps those within the longest window -/
theorem trimmed_eq {samples : List TickSample} (h : samples.Pairwise fun s t => s.wallTs ≤ t.wallTs) (now : Instant) :
    trimmed samples now = samples.filter fun s => now ≤ s.wallTs + maxWindow := by
  unfold trimmed
  split_ifs with hnow
  · rw [List.filter_eq_self.2]
    intro s _
    exact decide_eq_true (hnow.le.trans (Nat.le_add_left _ _))
  · rw [Core.dropWhile_lt_eq_filter TickSample.wallTs _ h]
    exact List.filter_congr fun s _ => decide_eq_decide.2 tsub_le_iff_right

/-- the first call of a history only sets the baseline -/
theorem push_first (b : Push) : ((({} : RollingMetrics).push ticksPerSecond b).Since b) ∧
    (({} : RollingMetrics).push ticksPerSecond b).samples = [] := by
  cases b with
  | procfs => exact ⟨⟨rfl, rfl, rfl⟩, rfl⟩
  | backend => exact ⟨⟨rfl, rfl, rfl⟩, rfl⟩

/-- a later call: its interval is appended and old samples leave, or nothing but the baseline changes -/
theorem push_after {m : RollingMetrics} {a b : Push} (hm : m.Since a) (ht : a.now ≤ b.now) :
    (m.push ticksPerSecond b).Since b ∧ (m.push ticksPerSecond b).samples =
      if a.Records b then trimmed (m.samples ++ [Push.sample ticksPerSecond a b]) b.now else m.samples := by
  obtain ⟨hts, hio, hcpu⟩ := hm
  have helapsed := checkedDurationSince_of_le ht
  cases b with
  | backend now ioOps perThreadUtil threadCount =>
    have hrec : a.Records (.backend now ioOps perThreadUtil threadCount) ↔ a.ioOps ≤ ioOps := and_iff_left rfl
    unfold push pushFromBackendUtil
    simp only [hts, hio, hrec]
    rw [show checkedDurationSince now a.now = some (now - a.now) from helapsed]
    dsimp only
    by_cases hle : a.ioOps ≤ ioOps
    · rw [if_neg (not_lt.2 hle), if_pos hle]
      obtain ⟨h1, h2, h3, h4⟩ := trim_frame (setBackendBaseline _ now ioOps) now
      exact ⟨⟨h2, h3, h4⟩, h1⟩
    · rw [if_pos (not_le.1 hle), if_neg hle]
      exact ⟨⟨rfl, rfl, rfl⟩, rfl⟩
  | procfs now ioOps cpuTicks =>
    unfold push pushFromProcfsDelta
    rcases hac : a.cpuTicks with _ | ticks'
    · have hrec : ¬ a.Records (.procfs now ioOps cpuTicks) := by
        rintro ⟨-, h⟩
        rw [hac] at h
        cases h
      rw [if_neg hrec]
      simp only [hts, hio, hcpu, hac]
      exact ⟨⟨rfl, rfl, rfl⟩, rfl⟩
    · have hrec : a.Records (.procfs now ioOps cpuTicks) ↔ a.ioOps ≤ ioOps ∧ ticks' ≤ cpuTicks := by
        unfold Push.Records
        rw [hac]
        exact and_congr_right fun _ => decide_eq_true_iff
      simp only [hts, hio, hcpu, hac, hrec]
      rw [show checkedDurationSince now a.now = some (now - a.now) from helapsed]
      dsimp only
      by_cases hle : a.ioOps ≤ ioOps ∧ ticks' ≤ cpuTicks
      · rw [if_neg (by omega), if_pos hle]
        obtain ⟨h1, h2, h3, h4⟩ := trim_frame (setBaseline _ now ioOps cpuTicks) now
        refine ⟨⟨h2, h3, h4⟩, h1.trans ?_⟩
        simp only [setBaseline, Push.sample, Push.cpuNsDelta, hac, Option.getD_some]
        rfl
      · rw [if_pos (by omega), if_neg hle]
        exact ⟨⟨rfl, rfl, rfl⟩, rfl⟩

end RollingMetrics

/-! ## Whole histories -/

/-- the history after a list of calls -/
def replay (calls : List Push) : RollingMetrics := calls.foldl (RollingMetrics.push ticksPerSecond) {}

/-- calls in the order of their times -/
def InOrder (calls : List Push) : Prop := calls.Pairwise fun a b => a.now ≤ b.now

/-- the pairs of successive calls of which the second records the interval between them -/
def recordedPairs (calls : List Push) : List (Push × Push) := (consecutive calls).filter fun p => p.1.Records p.2

/-- the call that ended the latest recorded interval -/
def lastRecorded (calls : List Push) : Option Push := (recordedPairs calls).getLast?.map Prod.snd

/-- the recorded intervals that ended within the longest window of the latest one -/
def retainedPairs (calls : List Push) : List (Push × Push) :=
  (recordedPairs calls).filter fun p => (lastRecorded calls).all fun last => last.now ≤ p.2.now + maxWindow

/-- the sample of a pair of calls -/
def sampleOf (p : Push × Push) : TickSample := Push.sample ticksPerSecond p.1 p.2

variable {ticksPerSecond : ℕ} {calls : List Push} {b : Push}

theorem recordedPairs_snoc (calls : List Push) (a b : Push) :
    recordedPairs (calls ++ [a] ++ [b]) =
      recordedPairs (calls ++ [a]) ++ if a.Records b then [(a, b)] else [] := by
  unfold recordedPairs
  rw [Core.consecutive_append_pair, List.filter_append]
  split_ifs with h <;> simp [h]

/-- recorded intervals do not overlap -/
theorem recordedPairs_apart (h : InOrder calls) : (recordedPairs calls).Pairwise fun p q => p.2.now ≤ q.1.now :=
  (Core.consecutive_pairwise (R := fun a b : Push => a.now ≤ b.now) (fun _ => le_rfl) h).filter _

theorem mem_recordedPairs {p : Push × Push} : p ∈ recordedPairs calls ↔ p ∈ consecutive calls ∧ p.1.Records p.2 := by
  simp [recordedPairs]

theorem recordedPairs_now_le (h : InOrder calls) {p : Push × Push} (hp : p ∈ recordedPairs calls) : p.1.now ≤ p.2.now :=
  Core.rel_of_mem_consecutive (R := fun a b : Push => a.now ≤ b.now) h.isChain (mem_recordedPairs.1 hp).1

theorem recordedPairs_sorted (h : InOrder calls) : (recordedPairs calls).Pairwise fun p q => p.2.now ≤ q.2.now :=
  (recordedPairs_apart h).imp_of_mem fun _ hq hpq => hpq.trans (recordedPairs_now_le h hq)

theorem retainedPairs_sublist (calls : List Push) : (retainedPairs calls).Sublist (recordedPairs calls) :=
  List.filter_sublist

/-- the latest recorded interval is never dropped -/
theorem retainedPairs_getLast? (calls : List Push) :
    (retainedPairs calls).getLast? = (recordedPairs calls).getLast? := by
  rcases List.eq_nil_or_concat (recordedPairs calls) with hnil | ⟨front, p, hcons⟩
  · rw [retainedPairs, hnil]
    rfl
  · have hlast : lastRecorded calls = some p.2 := by simp [lastRecorded, hcons]
    have hkeep : [p].filter (fun q => (some p.2).all fun last => last.now ≤ q.2.now + maxWindow) = [p] := by simp
    rw [retainedPairs, hlast, hcons, List.concat_eq_append, List.filter_append, hkeep, List.getLast?_append,
      List.getLast?_append]
    rfl

/-- dropping after every call, or once at the end, leaves the same -/
theorem filter_retainedPairs {now : Instant} (hnow : ∀ last, lastRecorded calls = some last → last.now ≤ now) :
    (retainedPairs calls).filter (fun p => now ≤ p.2.now + maxWindow) =
      (recordedPairs calls).filter fun p => now ≤ p.2.now + maxWindow := by
  rw [retainedPairs, List.filter_filter]
  refine List.filter_congr fun p _ => ?_
  cases hlast : lastRecorded calls with
  | none => simp
  | some last =>
    have hle := hnow last hlast
    simp only [Option.all_some]
    by_cases hp : now ≤ p.2.now + maxWindow
    · simp [hp, hle.trans hp]
    · simp [hp]

theorem lastRecorded_le (h : InOrder (calls ++ [b])) {last : Push} (hlast : lastRecorded calls = some last) :
    last.now ≤ b.now := by
  unfold lastRecorded at hlast
  obtain ⟨p, hp, rfl⟩ := Option.map_eq_some_iff.1 hlast
  have hmem := (mem_recordedPairs.1 (List.mem_of_getLast? hp)).1
  exact (List.pairwise_append.1 h).2.2 _ (Core.mem_of_mem_consecutive hmem).2 b List.mem_cons_self

/-- the baseline after a list of calls is the last one -/
theorem replay_since (ticksPerSecond : ℕ) (a : Push) (h : InOrder (calls ++ [a])) :
    (replay ticksPerSecond (calls ++ [a])).Since a ∧
      (replay ticksPerSecond (calls ++ [a])).samples = (retainedPairs (calls ++ [a])).map (sampleOf ticksPerSecond) := by
  induction calls using List.reverseRecOn generalizing a with
  | nil => exact RollingMetrics.push_first ticksPerSecond a
  | append_singleton calls b ih =>
    have hprev : InOrder (calls ++ [b]) := (List.pairwise_append.1 h).1
    obtain ⟨hsince, hsamples⟩ := ih b hprev
    have hba : b.now ≤ a.now := (List.pairwise_append.1 h).2.2 b (by simp) a List.mem_cons_self
    obtain ⟨hnext, happend⟩ := RollingMetrics.push_after ticksPerSecond hsince hba
    have hstep : replay ticksPerSecond (calls ++ [b] ++ [a]) =
        (replay ticksPerSecond (calls ++ [b])).push ticksPerSecond a := by
      simp [replay, List.foldl_append]
    rw [hstep]
    refine ⟨hnext, happend.trans ?_⟩
    have hpairs := recordedPairs_snoc calls b a
    by_cases hrec : b.Records a
    · rw [if_pos hrec] at hpairs ⊢
      have hlast : lastRecorded (calls ++ [b] ++ [a]) = some a := by
        rw [lastRecorded, hpairs, List.getLast?_append]
        rfl
      have hsorted : ((retainedPairs (calls ++ [b]) ++ [(b, a)]).map (sampleOf ticksPerSecond)).Pairwise
          fun s t => s.wallTs ≤ t.wallTs := by
        rw [List.pairwise_map]
        refine List.Pairwise.sublist ((retainedPairs_sublist _).append_right _) ?_
        rw [← hpairs]
        exact recordedPairs_sorted h
      have hkept : (retainedPairs (calls ++ [b]) ++ [(b, a)]).filter (fun p => a.now ≤ p.2.now + maxWindow) =
          retainedPairs (calls ++ [b] ++ [a]) := by
        rw [List.filter_append, filter_retainedPairs fun last hl => lastRecorded_le h hl, ← List.filter_append,
          ← hpairs, retainedPairs, hlast]
        rfl
      calc RollingMetrics.trimmed ((replay ticksPerSecond (calls ++ [b])).samples ++
            [Push.sample ticksPerSecond b a]) a.now
          = RollingMetrics.trimmed ((retainedPairs (calls ++ [b]) ++ [(b, a)]).map (sampleOf ticksPerSecond)) a.now := by
            rw [hsamples, List.map_append]
            rfl
        _ = ((retainedPairs (calls ++ [b]) ++ [(b, a)]).filter (fun p => a.now ≤ p.2.now + maxWindow)).map
              (sampleOf ticksPerSecond) := by
            rw [RollingMetrics.trimmed_eq hsorted, List.filter_map]
            rfl
        _ = (retainedPairs (calls ++ [b] ++ [a])).map (sampleOf ticksPerSecond) := by rw [hkept]
    · rw [if_neg hrec, List.append_nil] at hpairs
      rw [if_neg hrec, hsamples, retainedPairs, retainedPairs, lastRecorded, lastRecorded, hpairs]

/-- the retained samples, in terms of the calls -/
theorem replay_samples (ticksPerSecond : ℕ) (h : InOrder calls) :
    (replay ticksPerSecond calls).samples = (retainedPairs calls).map (sampleOf ticksPerSecond) := by
  rcases List.eq_nil_or_concat calls with rfl | ⟨front, a, rfl⟩
  · rfl
  · rw [List.concat_eq_append] at h ⊢
    exact (replay_since ticksPerSecond a h).2

/-! ## Totals -/

namespace RollingMetrics
variable (m : RollingMetrics) (window : ℕ)

/-- the samples that `totals` counts -/
def counted : List TickSample :=
  m.samples.filter fun s => m.samples.getLast?.all fun newest => newest.wallTs ≤ s.wallTs + window

/-- saturating sums are the sums, cut once at the end -/
theorem foldl_satAdd (samples : List TickSample) (a b c : ℕ) :
    samples.foldl (fun sums s => (satAdd sums.1 s.ioOpsDelta, satAdd sums.2.1 s.cpuNsDelta, satAdd sums.2.2 s.wallDtNs))
        (min a u64Max, min b u64Max, min c u64Max) =
      (min (a + (samples.map TickSample.ioOpsDelta).sum) u64Max, min (b + (samples.map TickSample.cpuNsDelta).sum) u64Max,
        min (c + (samples.map TickSample.wallDtNs).sum) u64Max) := by
  induction samples generalizing a b c with
  | nil => simp
  | cons s samples ih =>
    simp only [List.foldl_cons, List.map_cons, List.sum_cons, satAdd_min, ih, Nat.add_assoc]

theorem totals_eq : m.totals window = m.samples.getLast?.map fun _ =>
    (min ((m.counted window).map TickSample.ioOpsDelta).sum u64Max,
      min ((m.counted window).map TickSample.cpuNsDelta).sum u64Max,
      min ((m.counted window).map TickSample.wallDtNs).sum u64Max) := by
  unfold totals counted
  cases hlast : m.samples.getLast? with
  | none => rfl
  | some newest =>
    have hfilter : (m.samples.filter fun s => newest.wallTs < window ∨ newest.wallTs - window ≤ s.wallTs) =
        m.samples.filter fun s => (some newest).all fun newest => newest.wallTs ≤ s.wallTs + window := by
      refine List.filter_congr fun s _ => decide_eq_decide.2 ?_
      constructor
      · rintro (h | h)
        · exact h.le.trans (Nat.le_add_left _ _)
        · exact tsub_le_iff_right.1 h
      · exact fun h => Or.inr (tsub_le_iff_right.2 h)
    have hsum := foldl_satAdd (m.samples.filter fun s => (some newest).all fun newest => newest.wallTs ≤ s.wallTs + window)
      0 0 0
    rw [Option.map_some, Option.map_some, hfilter]
    simpa using hsum

/-- the rate of a window in which time passes -/
theorem iopsOver_of_totals {ioOps cpuNs wallNs : ℕ} (h : m.totals window = some (ioOps, cpuNs, wallNs))
    (hwall : 0 < wallNs) : m.iopsOver window = some (min (ioOps * nanosPerSec / wallNs) u64Max) := by
  simp [iopsOver, h, hwall]

end RollingMetrics

/-! ## Every operation at most once -/

namespace Push

/-- two successive calls in one mode, between which no counter went back -/
structure Steady (a b : Push) : Prop where
  mode : a.cpuTicks.isSome = b.cpuTicks.isSome
  ioOps : a.ioOps ≤ b.ioOps
  cpuTicks : ∀ ticks, a.cpuTicks = some ticks → ∀ ticks', b.cpuTicks = some ticks' → ticks ≤ ticks'

theorem Steady.records {a b : Push} (h : a.Steady b) : a.Records b := by
  refine ⟨h.ioOps, ?_⟩
  rcases hb : b.cpuTicks with _ | ticks'
  · rfl
  · have hmode := h.mode
    rw [hb] at hmode
    obtain ⟨ticks, ha⟩ := Option.isSome_iff_exists.1 hmode
    rw [ha]
    exact decide_eq_true (h.cpuTicks ticks ha ticks' hb)

theorem wallDtNs_le (a b : Push) : wallDtNs a b ≤ b.now - a.now := min_le_left _ _

end Push

/-- what a history of sampling intervals must be, for the calls that fed it -/
structure CountsOnce (m : RollingMetrics) (calls : List Push) : Prop where
  ordered : m.samples.Pairwise fun s t => s.wallTs ≤ t.wallTs
  recent : ∀ newest ∈ m.samples.getLast?, ∀ s ∈ m.samples, newest.wallTs ≤ s.wallTs + maxWindow
  apart : m.samples.Pairwise fun s t => s.wallTs ≤ t.wallTs - t.wallDtNs
  /-- every sample belongs to two successive calls of its own and counts the increase from one to the other; so a decrease
  contributes no sample -/
  exact : ∃ pairs, pairs.Sublist (consecutive calls) ∧ List.Forall₂ (fun p s =>
    s.wallTs = p.2.now ∧ s.wallDtNs = min (p.2.now - p.1.now) u64Max ∧ p.1.ioOps + s.ioOpsDelta = p.2.ioOps ∧
      ∀ ticks, p.1.cpuTicks = some ticks → ∀ ticks', p.2.cpuTicks = some ticks' → ticks ≤ ticks') pairs m.samples
  /-- when every call after `first` kept its mode and its counters, and each has its sample, a window over all samples has
  the rate since `first`, unless a number is clamped -/
  rate : ∀ older first rest last window, calls = older ++ first :: rest → (first :: rest).getLast? = some last →
    (first :: rest).IsChain Push.Steady → m.samples.length = rest.length →
    (∀ newest ∈ m.samples.getLast?, ∀ s ∈ m.samples, newest.wallTs ≤ s.wallTs + window) →
    last.ioOps - first.ioOps ≤ u64Max → last.now - first.now ≤ u64Max →
    (last.ioOps - first.ioOps) * nanosPerSec / (last.now - first.now) ≤ u64Max → first.now < last.now →
    m.iopsOver window = some ((last.ioOps - first.ioOps) * nanosPerSec / (last.now - first.now))

variable (ticksPerSecond)

/-- the newest sample is that of the latest recorded interval -/
theorem replay_newest (h : InOrder calls) :
    (replay ticksPerSecond calls).samples.getLast? =
      (recordedPairs calls).getLast?.map (sampleOf ticksPerSecond) := by
  rw [replay_samples ticksPerSecond h, List.getLast?_map, retainedPairs_getLast?]

theorem mem_retainedPairs {p : Push × Push} : p ∈ retainedPairs calls ↔
    p ∈ recordedPairs calls ∧ ∀ last, lastRecorded calls = some last → last.now ≤ p.2.now + maxWindow := by
  rw [retainedPairs, List.mem_filter]
  cases lastRecorded calls with
  | none => simp
  | some last => simp

/-- the retained intervals are the latest of the recorded ones -/
theorem retainedPairs_suffix (h : InOrder calls) : retainedPairs calls <:+ recordedPairs calls := by
  rw [retainedPairs]
  cases lastRecorded calls with
  | none => simp
  | some last =>
    have hdrop := Core.dropWhile_lt_eq_filter (fun p : Push × Push => p.2.now) (last.now - maxWindow)
      (recordedPairs_sorted h)
    have hkeep : ((recordedPairs calls).filter fun p => (some last).all fun last => last.now ≤ p.2.now + maxWindow) =
        (recordedPairs calls).filter fun p => last.now - maxWindow ≤ p.2.now :=
      List.filter_congr fun p _ => decide_eq_decide.2 tsub_le_iff_right.symm
    rw [hkeep, ← hdrop]
    exact List.dropWhile_suffix _

/-- calls that all record their interval, with a retained sample for each of them -/
theorem retainedPairs_of_steady (h : InOrder calls) {older rest : List Push} {first : Push}
    (hcalls : calls = older ++ first :: rest) (hsteady : (first :: rest).IsChain Push.Steady)
    (hlength : (retainedPairs calls).length = rest.length) : retainedPairs calls = consecutive (first :: rest) := by
  have hall : recordedPairs (first :: rest) = consecutive (first :: rest) := by
    refine List.filter_eq_self.2 fun p hp => decide_eq_true (Push.Steady.records ?_)
    exact Core.rel_of_mem_consecutive hsteady hp
  have hsplit : recordedPairs calls = recordedPairs (older ++ [first]) ++ consecutive (first :: rest) := by
    rw [← hall, recordedPairs, recordedPairs, recordedPairs, hcalls, Core.consecutive_append, List.filter_append]
  have hsuffix : consecutive (first :: rest) <:+ recordedPairs calls := by
    rw [hsplit]
    exact List.suffix_append _ _
  have hlen : (consecutive (first :: rest)).length = (retainedPairs calls).length := by
    rw [hlength, Core.length_consecutive, List.length_cons, Nat.add_sub_cancel]
  exact ((List.suffix_of_suffix_length_le (retainedPairs_suffix h) hsuffix hlen.ge).eq_of_length hlen.symm)

/-- increases between the calls of a list add up to the increase over it -/
theorem sum_increases (f : Push → ℕ) {first last : Push} {rest : List Push}
    (hlast : (first :: rest).getLast? = some last) (hmono : (first :: rest).IsChain fun a b => f a ≤ f b) :
    ((consecutive (first :: rest)).map fun p => f p.2 - f p.1).sum = f last - f first := by
  have hend : (first :: rest).getLast (List.cons_ne_nil first rest) = last := by
    rw [List.getLast?_eq_getLast_of_ne_nil (List.cons_ne_nil first rest), Option.some.injEq] at hlast
    exact hlast
  have hsum := Core.telescope f first rest hmono
  rw [hend] at hsum
  exact Nat.eq_sub_of_add_eq' hsum

/-- so do the recorded wall times, as none of them is clamped when the whole time is not -/
theorem sum_wallDtNs {first last : Push} {rest : List Push} (hlast : (first :: rest).getLast? = some last)
    (htimes : (first :: rest).IsChain fun a b => a.now ≤ b.now) (hwall : last.now - first.now ≤ u64Max) :
    ((consecutive (first :: rest)).map fun p => Push.wallDtNs p.1 p.2).sum = last.now - first.now := by
  have hsum := sum_increases Push.now hlast htimes
  have hunclamped : (consecutive (first :: rest)).map (fun p => Push.wallDtNs p.1 p.2) =
      (consecutive (first :: rest)).map fun p => p.2.now - p.1.now := by
    refine List.map_congr_left fun p hp => min_eq_left ?_
    calc p.2.now - p.1.now ≤ ((consecutive (first :: rest)).map fun p => p.2.now - p.1.now).sum :=
          List.le_sum_of_mem (List.mem_map_of_mem hp)
      _ = last.now - first.now := hsum
      _ ≤ u64Max := hwall
  rw [hunclamped, hsum]

/-- the rate over a whole history, from the first call of its oldest interval to the last call -/
theorem replay_rate (h : InOrder calls) {older rest : List Push} {first last : Push} {window : ℕ}
    (hcalls : calls = older ++ first :: rest) (hlast : (first :: rest).getLast? = some last)
    (hsteady : (first :: rest).IsChain Push.Steady)
    (hlength : (replay ticksPerSecond calls).samples.length = rest.length)
    (hcovers : ∀ newest ∈ (replay ticksPerSecond calls).samples.getLast?, ∀ s ∈ (replay ticksPerSecond calls).samples,
      newest.wallTs ≤ s.wallTs + window)
    (hops : last.ioOps - first.ioOps ≤ u64Max) (hwall : last.now - first.now ≤ u64Max)
    (hrate : (last.ioOps - first.ioOps) * nanosPerSec / (last.now - first.now) ≤ u64Max)
    (hpos : first.now < last.now) :
    (replay ticksPerSecond calls).iopsOver window =
      some ((last.ioOps - first.ioOps) * nanosPerSec / (last.now - first.now)) := by
  have hsamples := replay_samples ticksPerSecond h
  have hpairs : retainedPairs calls = consecutive (first :: rest) :=
    retainedPairs_of_steady h hcalls hsteady (by rw [← hlength, hsamples, List.length_map])
  rw [hpairs] at hsamples
  have htimes : (first :: rest).IsChain fun a b => a.now ≤ b.now := by
    apply List.Pairwise.isChain
    rw [hcalls] at h
    exact (List.pairwise_append.1 h).2.1
  have hopsTotal : ((replay ticksPerSecond calls).samples.map TickSample.ioOpsDelta).sum = last.ioOps - first.ioOps := by
    rw [hsamples, List.map_map]
    exact sum_increases Push.ioOps hlast (hsteady.imp fun _ _ hab => hab.ioOps)
  have hwallTotal : ((replay ticksPerSecond calls).samples.map TickSample.wallDtNs).sum = last.now - first.now := by
    rw [hsamples, List.map_map]
    exact sum_wallDtNs hlast htimes hwall
  have hcounted : (replay ticksPerSecond calls).counted window = (replay ticksPerSecond calls).samples := by
    refine List.filter_eq_self.2 fun s hs => ?_
    cases hnew : (replay ticksPerSecond calls).samples.getLast? with
    | none => rfl
    | some newest => exact decide_eq_true (hcovers newest hnew s hs)
  have hnonempty : (replay ticksPerSecond calls).samples ≠ [] := by
    intro hnil
    rw [hnil] at hwallTotal
    exact absurd hwallTotal.symm (Nat.sub_pos_of_lt hpos).ne'
  have htotals := (replay ticksPerSecond calls).totals_eq window
  rw [hcounted, List.getLast?_eq_getLast_of_ne_nil hnonempty, Option.map_some, hopsTotal, hwallTotal,
    min_eq_left hops, min_eq_left hwall] at htotals
  rw [RollingMetrics.iopsOver_of_totals _ _ htotals (Nat.sub_pos_of_lt hpos), min_eq_left hrate]

/-- for every list of calls in time order, of either kind and with any counters -/
theorem history_counts_once (h : InOrder calls) : CountsOnce (replay ticksPerSecond calls) calls := by
  have hsamples := replay_samples ticksPerSecond h
  have hsublist := retainedPairs_sublist calls
  refine ⟨?_, ?_, ?_, ?_, ?_⟩
  · rw [hsamples, List.pairwise_map]
    exact (recordedPairs_sorted h).sublist hsublist
  · intro newest hnewest s hs
    rw [replay_newest ticksPerSecond h] at hnewest
    obtain ⟨p, hp, rfl⟩ := Option.map_eq_some_iff.1 hnewest
    rw [hsamples] at hs
    obtain ⟨q, hq, rfl⟩ := List.mem_map.1 hs
    exact (mem_retainedPairs.1 hq).2 p.2 (by rw [lastRecorded, hp]; rfl)
  · rw [hsamples, List.pairwise_map]
    refine ((recordedPairs_apart h).sublist hsublist).imp_of_mem fun {p q} _ hq hpq => ?_
    have hle := recordedPairs_now_le h (hsublist.subset hq)
    calc p.2.now ≤ q.1.now := hpq
      _ = q.2.now - (q.2.now - q.1.now) := (Nat.sub_sub_self hle).symm
      _ ≤ q.2.now - Push.wallDtNs q.1 q.2 := Nat.sub_le_sub_left (Push.wallDtNs_le _ _) _
  · refine ⟨retainedPairs calls, hsublist.trans List.filter_sublist, ?_⟩
    rw [hsamples, List.forall₂_map_right_iff, List.forall₂_same]
    intro p hp
    obtain ⟨hops, hcpu⟩ := (mem_recordedPairs.1 (hsublist.subset hp)).2
    refine ⟨rfl, rfl, Nat.add_sub_cancel' hops, ?_⟩
    intro ticks hticks ticks' hticks'
    rw [hticks, hticks'] at hcpu
    exact of_decide_eq_true hcpu
  · intro older first rest last window hcalls hlast hsteady hlength hcovers hops hwall hrate hpos
    exact replay_rate ticksPerSecond h hcalls hlast hsteady hlength hcovers hops hwall hrate hpos

/-- a backend call, a first `/proc` call that only sets the baseline, and one interval after it -/
theorem history_counts_once_switch :
    CountsOnce (replay 100 [.backend 0 10 0 1, .procfs 5 20 7, .procfs 9 60 8])
      [.backend 0 10 0 1, .procfs 5 20 7, .procfs 9 60 8] :=
  history_counts_once 100 (by simp [InOrder, Push.now])

end IoThreadController
