/-
Converting durations to poll counts, over every sequence of calls on one converter.

- `leastMultiple_isLeast`: what rounding up aims at, the least multiple of the period that is not below the duration.
- `pollsAll_eq`: each call is independent of the others: it appends at most one error and leaves its own duration.
- `durations_exact_iff`: the conversion is exact or rejected, in both modes, unless rounding is on and some duration's
  least multiple is beyond `u64` while its poll count still fits `u32`; the saturated sum is then accepted.
- `resolveDurations_exact`: a start-up that passes has whole polls in every engine duration, for periods up to 2^32
  seconds.
-/
import IoThreadController.Model.Durations

namespace IoThreadController

/-! ## The least multiple -/

namespace PollPeriod
variable {p : PollPeriod}

theorem secs_pos (p : PollPeriod) : 0 < p.secs := Nat.pos_of_ne_zero p.nonzero

/-- the least multiple of the period that is at least `secs` -/
def leastMultiple (p : PollPeriod) (secs : ℕ) : ℕ :=
  if secs % p.secs = 0 then secs else secs / p.secs * p.secs + p.secs

/-- the poll count of the least multiple -/
def leastPolls (p : PollPeriod) (secs : ℕ) : ℕ :=
  if secs % p.secs = 0 then secs / p.secs else secs / p.secs + 1

theorem leastPolls_mul (p : PollPeriod) (secs : ℕ) : p.leastPolls secs * p.secs = p.leastMultiple secs := by
  unfold leastPolls leastMultiple
  split_ifs with h
  · exact Nat.div_mul_cancel (Nat.dvd_of_mod_eq_zero h)
  · exact Nat.succ_mul _ _

theorem leastMultiple_isLeast (p : PollPeriod) (secs : ℕ) :
    IsLeast {m | p.secs ∣ m ∧ secs ≤ m} (p.leastMultiple secs) := by
  have hsplit : p.secs * (secs / p.secs) + secs % p.secs = secs := Nat.div_add_mod secs p.secs
  have hlt : secs % p.secs < p.secs := Nat.mod_lt _ p.secs_pos
  refine ⟨⟨⟨p.leastPolls secs, by rw [mul_comm, leastPolls_mul]⟩, ?_⟩, ?_⟩
  · unfold leastMultiple
    split_ifs
    · exact le_rfl
    · rw [mul_comm]; omega
  · rintro m ⟨⟨k, rfl⟩, hm⟩
    rw [← leastPolls_mul, mul_comm]
    refine Nat.mul_le_mul_left _ ?_
    have hle : secs / p.secs ≤ k := calc
      secs / p.secs ≤ p.secs * k / p.secs := Nat.div_le_div_right hm
      _ = k := Nat.mul_div_cancel_left k p.secs_pos
    unfold leastPolls
    split_ifs with h
    · exact hle
    · refine Nat.succ_le_of_lt (lt_of_le_of_ne hle fun heq => ?_)
      rw [heq] at hsplit
      omega

/-! ## One call -/

/-- what the conversion must refuse -/
def Rejects (p : PollPeriod) (secs : ℕ) : Prop :=
  if p.roundUp then u64Max < p.leastMultiple secs ∨ u32Max < p.leastPolls secs
  else secs % p.secs ≠ 0 ∨ u32Max < secs / p.secs

instance (p : PollPeriod) : DecidablePred p.Rejects := fun secs =>
  inferInstanceAs (Decidable (if p.roundUp then u64Max < p.leastMultiple secs ∨ u32Max < p.leastPolls secs else _))

/-- the kind of duration that the saturated sum lets through -/
def Saturates (p : PollPeriod) (secs : ℕ) : Prop :=
  p.roundUp ∧ u64Max < p.leastMultiple secs ∧ p.leastPolls secs ≤ u32Max

instance (p : PollPeriod) : DecidablePred p.Saturates := fun _ => inferInstanceAs (Decidable (_ ∧ _))

/-- the duration that a call leaves in place -/
def left (p : PollPeriod) (secs : ℕ) : ℕ := if p.roundUp then min (p.leastMultiple secs) u64Max else secs

/-- the text that reports a refused duration -/
def report (p : PollPeriod) (call : PollCall) : String :=
  let below := call.secs / p.secs * p.secs
  if p.roundUp ∨ call.secs % p.secs = 0 then PollConverter.tooManyPollsText call.name (p.left call.secs)
  else PollConverter.notMultipleText call.name call.secs p.secs below (satAdd below p.secs)

/-- a call reports what must be refused, except what saturates -/
def Reports (p : PollPeriod) (secs : ℕ) : Prop := p.Rejects secs ∧ ¬ p.Saturates secs

instance (p : PollPeriod) : DecidablePred p.Reports := fun _ => inferInstanceAs (Decidable (_ ∧ _))

/-- what a call leaves in place and returns -/
def outcome (p : PollPeriod) (call : PollCall) : Converted :=
  ⟨p.left call.secs, if p.Reports call.secs then 0 else p.leastPolls call.secs⟩

theorem reports_iff (p : PollPeriod) (secs : ℕ) : p.Reports secs ↔
    if p.roundUp then u32Max < p.leastPolls secs else secs % p.secs ≠ 0 ∨ u32Max < secs / p.secs := by
  unfold Reports Rejects Saturates
  split_ifs with hup
  · constructor
    · rintro ⟨hbig | hmany, hsat⟩
      · by_contra hfew
        exact hsat ⟨hup, hbig, not_lt.1 hfew⟩
      · exact hmany
    · intro hmany
      exact ⟨.inr hmany, fun ⟨_, _, hfew⟩ => absurd hmany (not_lt.2 hfew)⟩
  · exact and_iff_left fun h => hup h.1

end PollPeriod

namespace PollConverter
variable {converter : PollConverter}

theorem fit_eq (converter : PollConverter) (name : String) (secs polls : ℕ) : converter.fit name secs polls =
    (if u32Max < polls then converter.push (tooManyPollsText name secs) else converter,
      ⟨secs, if u32Max < polls then 0 else polls⟩) := by
  unfold fit
  by_cases h : polls ≤ u32Max
  · rw [if_pos h, if_neg (not_lt.2 h), if_neg (not_lt.2 h)]
  · rw [if_neg h, if_pos (not_le.1 h), if_pos (not_le.1 h)]

/-- one call: the error it reports, if any, and what it leaves and returns -/
theorem polls_eq (converter : PollConverter) (call : PollCall) : converter.polls call.name call.secs =
    (if converter.poll.Reports call.secs then converter.push (converter.poll.report call) else converter,
      converter.poll.outcome call) := by
  have hfits := call.fits
  rw [PollPeriod.outcome, if_congr (PollPeriod.reports_iff _ _) rfl rfl, if_congr (PollPeriod.reports_iff _ _) rfl rfl]
  unfold polls PollPeriod.report PollPeriod.left PollPeriod.leastPolls PollPeriod.leastMultiple
  by_cases hup : converter.poll.roundUp = true
  · by_cases hmod : call.secs % converter.poll.secs = 0
    · simp only [hup, hmod, fit_eq, if_true, true_or, min_eq_left hfits]
    · simp only [hup, hmod, fit_eq, if_true, if_false, true_or, satAdd]
  · by_cases hmod : call.secs % converter.poll.secs = 0
    · simp only [hup, hmod, fit_eq, if_true, if_false, false_or, or_true, ne_eq, not_true_eq_false, reduceCtorEq]
    · simp only [hup, hmod, if_true, if_false, or_self, ne_eq, not_false_eq_true, true_or, reduceCtorEq]

/-- a sequence of calls: each reports for itself, in call order, and converts its own duration -/
theorem pollsAll_eq (converter : PollConverter) (calls : List PollCall) : converter.pollsAll calls =
    ({ converter with
        errors := converter.errors ++
          (calls.filter fun call => converter.poll.Reports call.secs).map converter.poll.report },
      calls.map converter.poll.outcome) := by
  induction calls generalizing converter with
  | nil => simp [pollsAll]
  | cons call calls ih =>
    simp only [pollsAll, polls_eq, List.map_cons, PollPeriod.outcome]
    by_cases hrep : converter.poll.Reports call.secs
    · simp only [hrep, if_true, ih, push, decide_true, List.filter_cons_of_pos, List.map_cons, List.append_assoc,
        List.singleton_append]
    · simp only [hrep, if_false, ih, decide_false, Bool.false_eq_true, not_false_eq_true, List.filter_cons_of_neg]

theorem finish_eq_ok : converter.finish = .ok () ↔ converter.errors = [] := by
  unfold finish
  split_ifs with h <;> simp [h]

end PollConverter

namespace PollPeriod
variable {p : PollPeriod} {calls : List PollCall}

theorem converter_pollsAll (p : PollPeriod) (calls : List PollCall) : p.converter.pollsAll calls =
    (⟨p, (calls.filter fun call => p.Reports call.secs).map p.report⟩, calls.map p.outcome) :=
  PollConverter.pollsAll_eq p.converter calls

/-! ## A whole sequence of calls -/

/-- every duration is converted exactly or refused, over one converter's life -/
structure ExactOrRejected (p : PollPeriod) (calls : List PollCall) : Prop where
  /-- success means that every count returned is the duration left, in periods, within `u64` -/
  exact : (p.converter.pollsAll calls).1.finish = .ok () →
    ∀ out ∈ (p.converter.pollsAll calls).2, out.polls * p.secs = out.secs ∧ out.secs ≤ u64Max
  /-- without rounding no duration changes -/
  kept : p.roundUp = false → (p.converter.pollsAll calls).2.map (·.secs) = calls.map (·.secs)
  /-- the errors are those of the durations to refuse, in call order -/
  errors : (p.converter.pollsAll calls).1.errors = (calls.filter fun call => p.Rejects call.secs).map p.report
  /-- with rounding an accepted duration becomes the least multiple that is not below it -/
  rounded : p.roundUp = true → List.Forall₂ (fun call out => ¬ p.Rejects call.secs →
    IsLeast {m | p.secs ∣ m ∧ call.secs ≤ m} out.secs) calls (p.converter.pollsAll calls).2

/-- a refused duration that reports nothing leaves fewer errors than there are durations to refuse -/
theorem reports_of_errors_eq (h : (calls.filter fun call => p.Reports call.secs).length =
    (calls.filter fun call => p.Rejects call.secs).length) {call : PollCall} (hmem : call ∈ calls)
    (hrej : p.Rejects call.secs) : p.Reports call.secs := by
  have hsub : (calls.filter fun call => p.Reports call.secs).Sublist (calls.filter fun call => p.Rejects call.secs) :=
    List.monotone_filter_right calls fun c hc => decide_eq_true (of_decide_eq_true hc).1
  have hin : call ∈ calls.filter fun call => p.Rejects call.secs := by simp [hmem, hrej]
  rw [← hsub.eq_of_length h] at hin
  simpa using (List.mem_filter.1 hin).2

/-- an accepted duration becomes its least multiple, which fits `u64` -/
theorem outcome_of_accepted {call : PollCall} (h : ¬ p.Rejects call.secs) :
    p.outcome call = ⟨p.leastMultiple call.secs, p.leastPolls call.secs⟩ ∧ p.leastMultiple call.secs ≤ u64Max := by
  have hrep : ¬ p.Reports call.secs := fun hrep => h hrep.1
  have hleast : p.left call.secs = p.leastMultiple call.secs ∧ p.leastMultiple call.secs ≤ u64Max := by
    unfold Rejects at h
    unfold left
    split_ifs at h ⊢ with hup
    · obtain ⟨hbig, -⟩ := not_or.1 h
      exact ⟨min_eq_left (not_lt.1 hbig), not_lt.1 hbig⟩
    · obtain ⟨hmod, -⟩ := not_or.1 h
      have hsame : p.leastMultiple call.secs = call.secs := if_pos (not_not.1 hmod)
      exact ⟨hsame.symm, hsame.le.trans call.fits⟩
  exact ⟨by rw [outcome, if_neg hrep, hleast.1], hleast.2⟩

/-- a converter that finishes without error has met nothing to report -/
theorem not_reports_of_finish (h : (p.converter.pollsAll calls).1.finish = .ok ()) {call : PollCall}
    (hmem : call ∈ calls) : ¬ p.Reports call.secs := by
  intro hrep
  rw [converter_pollsAll, PollConverter.finish_eq_ok, List.map_eq_nil_iff, List.filter_eq_nil_iff] at h
  exact h call hmem (decide_eq_true hrep)

/-- without a saturating duration the conversion is exact or rejected -/
theorem exactOrRejected_of_not_saturates (hsat : ∀ call ∈ calls, ¬ p.Saturates call.secs) :
    p.ExactOrRejected calls := by
  refine ⟨?_, ?_, ?_, ?_⟩
  · intro hok out hout
    rw [converter_pollsAll] at hout
    obtain ⟨call, hmem, rfl⟩ := List.mem_map.1 hout
    have hacc : ¬ p.Rejects call.secs := fun hrej => not_reports_of_finish hok hmem ⟨hrej, hsat call hmem⟩
    obtain ⟨hout, hfits⟩ := outcome_of_accepted hacc
    rw [hout]
    exact ⟨p.leastPolls_mul _, hfits⟩
  · intro hup
    rw [converter_pollsAll, List.map_map]
    refine List.map_congr_left fun call _ => ?_
    simp [outcome, left, hup]
  · rw [converter_pollsAll]
    refine congrArg _ (List.filter_congr fun call hmem => decide_eq_decide.2 ?_)
    exact and_iff_left (hsat call hmem)
  · intro hup
    rw [converter_pollsAll, List.forall₂_map_right_iff, List.forall₂_same]
    intro call _ hacc
    rw [(outcome_of_accepted hacc).1]
    exact p.leastMultiple_isLeast call.secs

/-- conversion is exact or rejected exactly when no duration of the sequence saturates -/
theorem durations_exact_iff (p : PollPeriod) (calls : List PollCall) :
    p.ExactOrRejected calls ↔ ∀ call ∈ calls, ¬ p.Saturates call.secs := by
  refine ⟨?_, exactOrRejected_of_not_saturates⟩
  intro h call hmem hsat
  have hlen := congrArg List.length h.errors
  rw [converter_pollsAll, List.length_map, List.length_map] at hlen
  have hrej : p.Rejects call.secs := by
    unfold Rejects
    rw [if_pos hsat.1]
    exact .inl hsat.2.1
  exact (reports_of_errors_eq hlen hmem hrej).2 hsat

/-- with a period of ten billion seconds, the largest duration is "rounded up" to itself and accepted, though it is no
multiple -/
theorem saturated_duration_accepted : ¬ PollPeriod.ExactOrRejected ⟨10000000000, true, by decide⟩
    [⟨"cooldown_secs", u64Max, le_rfl⟩] := by
  intro h
  have hexact := h.exact (by decide +kernel) ⟨u64Max, 1844674408⟩ (by decide +kernel)
  exact absurd hexact.1 (by decide +kernel)

/-- a period of at most 2^32 seconds never saturates: what is beyond `u64` spans too many polls as well -/
theorem not_saturates_of_period (hp : p.secs ≤ 2 ^ 32) (secs : ℕ) : ¬ p.Saturates secs := by
  rintro ⟨-, hbig, hfew⟩
  have hle : p.leastMultiple secs ≤ u32Max * 2 ^ 32 := calc
    p.leastMultiple secs = p.leastPolls secs * p.secs := (p.leastPolls_mul secs).symm
    _ ≤ u32Max * 2 ^ 32 := Nat.mul_le_mul hfew hp
  exact absurd (hbig.trans_le hle) (by decide)

end PollPeriod

/-! ## The durations of the daemon -/

/-- the durations that start-up converts, in order, under their setting names -/
def startDurations (cfg : Config) (engine : ThresholdDurations) : List (String × ℕ) :=
  [("cooldown_secs", cfg.cooldownSecs),
    ("scale_down_sustain_secs", engine.scaleDownSustainSecs),
    ("scale_validation_delay_secs", engine.scaleValidationDelaySecs),
    ("scale_validation_delay_per_thread_secs", engine.scaleValidationDelayPerThreadSecs),
    ("post_revert_up_grace_secs", engine.postRevertUpGraceSecs),
    ("post_revert_up_recovery_secs", engine.postRevertUpRecoverySecs),
    ("post_revert_up_backoff_max_secs", engine.postRevertUpBackoffMaxSecs),
    ("scale_down_backoff_max_secs", engine.scaleDownBackoffMaxSecs)]

def ThresholdPolls.toList (polls : ThresholdPolls) : List ℕ :=
  [polls.scaleDownSustain, polls.scaleValidationDelay, polls.scaleValidationDelayPerThread, polls.postRevertUpGrace,
    polls.postRevertUpRecovery, polls.postRevertUpBackoffMax, polls.scaleDownBackoffMax]

/-- start-up is one sequence of calls on one converter -/
theorem resolveDurations_calls {poll : PollPeriod} {cfg cfg' : Config} {engine engine' : ThresholdDurations}
    {polls : ThresholdPolls} (hfits : ∀ x ∈ startDurations cfg engine, x.2 ≤ u64Max)
    (h : resolveDurations poll cfg engine = .ok (cfg', engine', polls)) :
    let run := poll.converter.pollsAll ((startDurations cfg engine).pmap (fun x hx => ⟨x.1, x.2, hx⟩) hfits)
    run.1.finish = .ok () ∧ run.2.map (·.secs) = (startDurations cfg' engine').map (·.2) ∧
      (run.2.map (·.polls)).tail = polls.toList := by
  intro run
  simp only [resolveDurations, bind, Except.bind] at h
  split at h
  · simp at h
  · rename_i hfin
    cases h
    exact ⟨hfin, rfl, rfl⟩

/-- a start-up that passes has turned every engine duration into whole polls -/
theorem resolveDurations_exact {poll : PollPeriod} {cfg cfg' : Config} {engine engine' : ThresholdDurations}
    {polls : ThresholdPolls} (hperiod : poll.secs ≤ 2 ^ 32) (hfits : ∀ x ∈ startDurations cfg engine, x.2 ≤ u64Max)
    (h : resolveDurations poll cfg engine = .ok (cfg', engine', polls)) :
    polls.toList.map (· * poll.secs) = ((startDurations cfg' engine').map (·.2)).tail := by
  obtain ⟨hfin, hsecs, hpolls⟩ := resolveDurations_calls hfits h
  have hexact (calls : List PollCall) : poll.ExactOrRejected calls :=
    PollPeriod.exactOrRejected_of_not_saturates fun call _ => PollPeriod.not_saturates_of_period hperiod call.secs
  rw [← hsecs, ← hpolls, ← List.map_tail, ← List.map_tail, List.map_map]
  exact List.map_congr_left fun out hout => ((hexact _).exact hfin out (List.mem_of_mem_tail hout)).1

end IoThreadController
