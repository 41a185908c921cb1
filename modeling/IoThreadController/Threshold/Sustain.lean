/-
The scale-down sustain with its backoff.

- `util_le_of_oversized`: a pool that is larger than its load needs is not saturated.
- `down_iff_sustained`: along every run, an evaluation proposes a scale-down exactly when no validation is pending and
  the load has fitted a smaller pool for `sustainPolls` evaluations in a row, this one included and at least one.
- `pending_defers_down`: a pending validation keeps a sustained scale-down away.
-/
import IoThreadController.Threshold.Bounds
import IoThreadController.Threshold.History

namespace IoThreadController.ThresholdEngine

variable {T : ThresholdEngine} {s : InstanceState} {p : Poll}

/-! ## The pool and its load -/

theorem one_le_requiredWorkers (T : ThresholdEngine) (util : ℚ) (n : ℕ) : 1 ≤ T.requiredWorkers util n := by
  unfold requiredWorkers requiredWorkersBy
  dsimp only [id]
  apply le_min
  · have hmax : (1 : ℤ) ≤ max ⌈util * n / T.cfg.scaleUpThreshold⌉ 1 := le_max_right _ _
    omega
  · decide

theorem requiredWorkers_le_target {util : ℚ} {n least : ℕ} (h : T.scaleDownTarget util n least < n) :
    T.requiredWorkers util n ≤ T.scaleDownTarget util n least := by
  rw [scaleDownTarget_eq] at h ⊢
  split_ifs at h ⊢ <;> omega

/-- workers whose load fits fewer of them are at most as busy as the threshold -/
theorem util_le_of_oversized (h : T.Oversized p) (hn : p.status.threadCount ≤ u32Max) :
    p.status.perThreadUtil ≤ T.cfg.scaleUpThreshold := by
  have hlt : T.requiredWorkers p.status.perThreadUtil p.status.threadCount < p.status.threadCount :=
    (requiredWorkers_le_target h).trans_lt h
  have hone := one_le_requiredWorkers T p.status.perThreadUtil p.status.threadCount
  have hload : p.status.perThreadUtil * p.status.threadCount ≤
      T.cfg.scaleUpThreshold * ((p.status.threadCount - 1 : ℕ) : ℚ) :=
    (requiredWorkers_le T _ _ (by omega) (by omega)).1 (by omega)
  have hpos : (0 : ℚ) < p.status.threadCount := by
    have hnat : 0 < p.status.threadCount := by omega
    exact_mod_cast hnat
  by_contra hbusy
  have hmore : T.cfg.scaleUpThreshold * p.status.threadCount < p.status.perThreadUtil * p.status.threadCount :=
    mul_lt_mul_of_pos_right (not_le.1 hbusy) hpos
  have hfewer : T.cfg.scaleUpThreshold * ((p.status.threadCount - 1 : ℕ) : ℚ) ≤
      T.cfg.scaleUpThreshold * p.status.threadCount := by
    apply mul_le_mul_of_nonneg_left _ T.threshold_pos.le
    exact_mod_cast Nat.sub_le _ _
  linarith

/-! ## The sustain -/

/-- evaluations that a scale-down must be sustained for, after `failures` failed ones -/
def sustainPolls (T : ThresholdEngine) (failures : ℕ) : ℕ :=
  if T.polls.scaleDownBackoffMax = 0 then T.polls.scaleDownSustain
  else min (T.polls.scaleDownSustain * 2 ^ failures) (max T.polls.scaleDownSustain T.polls.scaleDownBackoffMax)

theorem sustainPolls_eq (hfit : T.polls.Fits) (failures : ℕ) :
    T.scaleDownSustainPolls (min failures u32Max) = T.sustainPolls failures :=
  backoffPolls_failures hfit.sustain hfit.down_cap failures 0 (Nat.zero_le 1)

/-- in every run of fewer than `2^32` evaluations: a scale-down is proposed exactly when no validation is pending and the
streak, this evaluation included, is long enough -/
theorem down_iff_sustained (T : ThresholdEngine) (hfit : T.polls.Fits) (es : List DriveEvent) (p : Poll)
    (hcount : (Core.run T.witnessed (.new, {}) es).2.polls + 1 < 2 ^ 32) (hn : p.status.threadCount ≤ u32Max) :
    let x := Core.run T.witnessed (.new, {}) es
    let sustain := T.polls.scaleDownSustain
    let m := T.polls.scaleDownBackoffMax
    let S := if m = 0 then sustain else min (sustain * 2 ^ x.2.failedDowns) (max sustain m)
    (∃ t, T.decision x.1 p = .down t) ↔
      x.1.pendingValidation = none ∧ max S 1 ≤ if T.Oversized p then x.2.streak + 1 else 0 := by
  intro x sustain m S
  have hacc : Accurate x := run_accurate T es
  have hle := hacc.streak_le
  have hS : T.scaleDownSustainPolls x.1.consecutiveFailedDowns = S := by
    rw [hacc.downs]
    exact sustainPolls_eq hfit _
  -- the counter of the source is the streak, without wrapping
  have hlow : x.1.pendingValidation = none → (x.1.lowUtilPolls + 1) % 2 ^ 32 = x.2.streak + 1 := by
    intro hp
    rw [hacc.streak_free hp, Nat.mod_add_mod]
    apply Nat.mod_eq_of_lt
    change x.2.polls + 1 < 2 ^ 32 at hcount
    omega
  constructor
  · intro hdown
    obtain ⟨t, ht⟩ := hdown
    obtain ⟨⟨hp, -, hover, hsus⟩, -⟩ := evaluate_down.1 ht
    rw [hS, hlow hp] at hsus
    have ho : T.Oversized p := hover
    rw [if_pos ho]
    exact ⟨hp, max_le hsus (Nat.le_add_left _ _)⟩
  · intro hcount
    obtain ⟨hp, hmax⟩ := hcount
    have ho : T.Oversized p := by
      by_contra hno
      rw [if_neg hno] at hmax
      simp at hmax
    rw [if_pos ho] at hmax
    refine ⟨_, evaluate_down.2 ⟨⟨hp, ?_, ho, ?_⟩, rfl⟩⟩
    · intro hsat
      exact absurd (util_le_of_oversized ho hn) (not_le.2 hsat.2.2)
    · rw [hS, hlow hp]
      exact (le_max_left _ _).trans hmax

/-- an idle pool of four, with the default sustain of three -/
theorem down_iff_sustained_idle :
    let poll (t : ℕ) : Poll :=
      { status := { threadCount := 4, perThreadUtil := 1 / 10 }, context := ⟨fromSecs t, 2, 8, 0, {}, 0⟩ }
    ∃ t, standard.decision (Core.run standard.witnessed (.new, {}) [.poll (poll 0), .poll (poll 10)]).1 (poll 20) =
      .down t := by
  intro poll
  exact (down_iff_sustained standard standard_fits [.poll (poll 0), .poll (poll 10)] (poll 20) (by decide +kernel)
    (by decide)).2 (by decide +kernel)

/-- the third worker turns out idle at once, but the validation of its scale-up is pending for longer than the sustain -/
theorem pending_defers_down :
    let patient : ThresholdEngine :=
      { polls := { scaleValidationDelay := 6 }, valid := ThresholdConfig.validate_default }
    let poll (t n : ℕ) (util : ℚ) : Poll :=
      { status := { threadCount := n, perThreadUtil := util }
        context := ⟨fromSecs t, 2, 8, 0, {}, 0⟩
        appliedAt := some (fromSecs t) }
    let x := Core.run patient.witnessed (.new, {})
      [.poll (poll 0 2 1), .poll (poll 10 3 (1 / 10)), .poll (poll 20 3 (1 / 10)), .poll (poll 30 3 (1 / 10))]
    let p := poll 40 3 (1 / 10)
    max (patient.sustainPolls x.2.failedDowns) 1 ≤ x.2.streak ∧ patient.Oversized p ∧
      patient.decision x.1 p = .none := by
  decide +kernel

end IoThreadController.ThresholdEngine
