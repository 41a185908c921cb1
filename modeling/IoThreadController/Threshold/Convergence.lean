/-
Constant load: the pool converges to one size and stays there.

A VM under the load `L` shows the utilisation `min 1 (L / n)` on a pool of `n` workers. With validation disabled and
every proposal applied, the engine grows a pool below `idealSize`, shrinks a pool above it, and leaves it alone there.

- `upReached_iff`, `oversized_iff`, `idealSize_le_target`: the two formulas of the source meet at `idealSize`.
- `decision_below`, `decision_at`, `decision_above`: what an evaluation proposes, by the current size.
- `converges`: from every reachable state and every size within the bounds, the sizes move in one direction only, reach
  `idealSize`, and nothing is proposed from then on.
-/
import IoThreadController.Threshold.Sustain

namespace IoThreadController.ThresholdEngine

variable {T : ThresholdEngine} {L : ℚ} {least most : ℕ}

/-- a VM under the constant load `L`, with every proposal applied -/
structure ConstantLoad (T : ThresholdEngine) (L : ℚ) (least most : ℕ) (s : ℕ → InstanceState) (p : ℕ → Poll) :
    Prop where
  util : ∀ k, (p k).status.perThreadUtil = min 1 (L / (p k).status.threadCount)
  unthrottled : ∀ k, (p k).status.throttledUsecDelta = 0
  min_count : ∀ k, (p k).context.minThreadCount = least
  max_count : ∀ k, (p k).context.maxThreadCount = most
  applied : ∀ k, (p k).appliedAt.isSome = true
  state : ∀ k, s (k + 1) = T.driveStep (s k) (p k)
  size : ∀ k, (p (k + 1)).status.threadCount = (T.decision (s k) (p k)).target.getD (p k).status.threadCount

/-- the smallest pool within the bounds that keeps the load at the threshold -/
def idealSize (T : ThresholdEngine) (L : ℚ) (least most : ℕ) : ℕ :=
  max least (min most ⌈L / T.cfg.scaleUpThreshold⌉₊)

/-! ## States without validation -/

/-- no validation, no hold, and a sustain counter in range -/
structure Calm (s : InstanceState) : Prop where
  pending : s.pendingValidation = none
  hold : s.postRevertUpHold = none
  low : s.lowUtilPolls < 2 ^ 32

theorem freeState_calm {s : InstanceState} (h : Calm s) (p : Poll) : Calm (T.freeState s p.status p.context) := by
  obtain ⟨hp, -, -, -, -, hhold⟩ := freeState_frame T s p.status p.context
  refine ⟨hp.trans h.pending, hhold.trans ?_, ?_⟩
  · simp only [baselinePhase, InstanceState.advancePostRevertUpHold, h.hold]
    cases hb : s.baselineWindowStart with
    | none => simp [InstanceState.refreshBaselineRate, hb, h.hold]
    | some w => simp [InstanceState.refreshBaselineRate, hb, h.hold]
  · rw [freeState_lowUtil]
    split_ifs
    · exact Nat.mod_lt _ (by decide)
    · decide

theorem validates_of_disabled (hup : T.cfg.scaleUpMinGain = 0) (hdown : T.cfg.scaleDownRevertDrop = 0)
    (action : ScaleAction) : T.validates action = false := by
  cases action <;> simp [validates, hup, hdown]

theorem driveStep_calm (hup : T.cfg.scaleUpMinGain = 0) (hdown : T.cfg.scaleDownRevertDrop = 0) {s : InstanceState}
    (h : Calm s) (p : Poll) : Calm (T.driveStep s p) := by
  rcases driveStep_cases T s p with
    ⟨x, hx, -, -⟩ | ⟨x, hd, -⟩ | ⟨-, he⟩ | ⟨at', -, -, -, hv, -⟩ | ⟨at', -, happ, hord, -, he⟩
  · have hp := h.pending; rw [hx] at hp; simp at hp
  · have hp := h.pending; rw [hd.1] at hp; simp at hp
  · rw [he]; exact freeState_calm h p
  · rw [validates_of_disabled hup hdown] at hv; simp at hv
  · have ha : T.Applies s p := ⟨by rw [happ]; rfl, hord⟩
    obtain ⟨-, -, hlow, hhold⟩ := driveStep_applied ha
    refine ⟨?_, hhold, by rw [hlow]; decide⟩
    rw [he]
    exact (resetAfterApplied_frame _ _).1.trans (freeState_calm h p).pending

theorem run_calm (hup : T.cfg.scaleUpMinGain = 0) (hdown : T.cfg.scaleDownRevertDrop = 0) (es : List DriveEvent) :
    Calm (Core.run T.drive .new es) := by
  have hnew : Calm .new := ⟨rfl, rfl, by decide⟩
  refine Core.run_inv Calm ?_ hnew (Core.along_true _ _ _)
  intro s e hs _
  cases e with
  | forget => exact hnew
  | poll p => exact driveStep_calm hup hdown hs p

/-! ## The two formulas -/

section Formulas

variable {p : Poll} (hutil : p.status.perThreadUtil = min 1 (L / p.status.threadCount))
  (hpos : 0 < p.status.threadCount)

include hutil hpos

/-- the observed utilisation adds up to the load, or to the whole pool when the load is larger -/
theorem util_mul : p.status.perThreadUtil * p.status.threadCount = min (p.status.threadCount : ℚ) L := by
  have hn : (0 : ℚ) < p.status.threadCount := by exact_mod_cast hpos
  rw [hutil, min_mul_of_nonneg _ _ hn.le, one_mul, div_mul_cancel₀ _ hn.ne']

/-- the workers are busier than the threshold exactly when the load needs more of them -/
theorem busy_iff (hq : T.cfg.scaleUpThreshold < 1) :
    T.cfg.scaleUpThreshold < p.status.perThreadUtil ↔ p.status.threadCount < ⌈L / T.cfg.scaleUpThreshold⌉₊ := by
  have hn : (0 : ℚ) < p.status.threadCount := by exact_mod_cast hpos
  calc T.cfg.scaleUpThreshold < p.status.perThreadUtil
      ↔ T.cfg.scaleUpThreshold < L / p.status.threadCount := by
        rw [hutil, lt_min_iff]
        exact ⟨fun h => h.2, fun h => ⟨hq, h⟩⟩
    _ ↔ (p.status.threadCount : ℚ) < L / T.cfg.scaleUpThreshold := by
        rw [lt_div_iff₀ hn, lt_div_iff₀ T.threshold_pos, mul_comm]
    _ ↔ p.status.threadCount < ⌈L / T.cfg.scaleUpThreshold⌉₊ := Nat.lt_ceil.symm

/-- the load fits `m` workers, fewer than there are, exactly when it needs at most `m` -/
theorem fits_iff (hq : T.cfg.scaleUpThreshold < 1) {m : ℕ} (hm : 0 < m) (hlt : m < p.status.threadCount)
    (hn : p.status.threadCount ≤ u32Max) :
    T.requiredWorkers p.status.perThreadUtil p.status.threadCount ≤ m ↔ ⌈L / T.cfg.scaleUpThreshold⌉₊ ≤ m := by
  have hq0 := T.threshold_pos
  have hfull : T.cfg.scaleUpThreshold * m < p.status.threadCount := by
    have hmq : (m : ℚ) < p.status.threadCount := by exact_mod_cast hlt
    have hmpos : (0 : ℚ) < m := by exact_mod_cast hm
    calc T.cfg.scaleUpThreshold * m < 1 * m := mul_lt_mul_of_pos_right hq hmpos
      _ = m := one_mul _
      _ < p.status.threadCount := hmq
  rw [requiredWorkers_le T _ _ hm (by omega), util_mul hutil hpos, min_le_iff, Nat.ceil_le, div_le_iff₀ hq0,
    mul_comm (m : ℚ)]
  exact ⟨fun h => h.resolve_left (not_le.2 hfull), Or.inr⟩

end Formulas

/-! ## Decisions -/

/-- a poll of the constant load, on a pool within the bounds, with a state that validates nothing -/
structure LoadPoll (T : ThresholdEngine) (L : ℚ) (least most : ℕ) (s : InstanceState) (p : Poll) : Prop where
  calm : Calm s
  util : p.status.perThreadUtil = min 1 (L / p.status.threadCount)
  unthrottled : p.status.throttledUsecDelta = 0
  min_count : p.context.minThreadCount = least
  max_count : p.context.maxThreadCount = most
  low : least ≤ p.status.threadCount
  high : p.status.threadCount ≤ most

section Decisions

variable {s : InstanceState} {p : Poll} (hq : T.cfg.scaleUpThreshold < 1) (hleast : 0 < least)
  (hmost : most ≤ u32Max) (h : LoadPoll T L least most s p)

include hq hleast h

theorem upReached_iff : T.UpReached s p.status p.context ↔ p.status.threadCount < T.idealSize L least most := by
  have hlow := h.low
  have hbusy := busy_iff h.util (by omega) hq
  have hblock : s.holdBlocks T.polls.postRevertUpRecovery = false := by simp [InstanceState.holdBlocks, h.calm.hold]
  have hquiet : ¬ (T.cfg.blockScaleUpWhenCgroupThrottled = true ∧ 0 < p.status.throttledUsecDelta) := by
    simp [h.unthrottled]
  unfold UpReached Saturated idealSize
  rw [hbusy, h.max_count]
  constructor
  · intro hup
    obtain ⟨-, ⟨-, hmax, hceil⟩, -⟩ := hup
    exact lt_max_of_lt_right (lt_min hmax hceil)
  · intro hlt
    rcases lt_max_iff.1 hlt with hl | hm
    · omega
    · exact ⟨h.calm.pending, ⟨hblock, (lt_min_iff.1 hm).1, (lt_min_iff.1 hm).2⟩, hquiet⟩

theorem decision_below (hn : p.status.threadCount < T.idealSize L least most) :
    T.decision s p = .up (p.status.threadCount + 1) :=
  evaluate_up.2 ⟨(upReached_iff hq hleast h).2 hn, rfl⟩

include hmost

theorem oversized_iff : T.Oversized p ↔ T.idealSize L least most < p.status.threadCount := by
  have hlow := h.low
  have hhigh := h.high
  have hone := one_le_requiredWorkers T p.status.perThreadUtil p.status.threadCount
  have htarget : T.Oversized p ↔
      max (T.requiredWorkers p.status.perThreadUtil p.status.threadCount) least < p.status.threadCount := by
    unfold Oversized
    rw [h.min_count, scaleDownTarget_eq]
    split_ifs <;> omega
  rw [htarget]
  unfold idealSize
  rcases Nat.lt_or_ge least p.status.threadCount with hl | hl
  · have hfits := fits_iff (m := p.status.threadCount - 1) h.util (by omega) hq (by omega) (by omega) (by omega)
    omega
  · omega

/-- a scale-down stops at the ideal size at the latest -/
theorem idealSize_le_target (ho : T.Oversized p) :
    T.idealSize L least most ≤ T.scaleDownTarget p.status.perThreadUtil p.status.threadCount
      p.context.minThreadCount := by
  have hlow := h.low
  have hhigh := h.high
  have hone := one_le_requiredWorkers T p.status.perThreadUtil p.status.threadCount
  have hreq := requiredWorkers_le_target ho
  have hfits := (fits_iff h.util (by omega) hq (by omega) ho (by omega)).1 hreq
  have hleastle := least_le_scaleDownTarget ho
  rw [h.min_count] at hfits hleastle ⊢
  exact max_le hleastle ((min_le_right _ _).trans hfits)

/-- an evaluation proposes nothing at the ideal size -/
theorem decision_at (hn : p.status.threadCount = T.idealSize L least most) : T.decision s p = .none := by
  rcases hdec : T.decision s p with _ | t | t | t
  · rfl
  · have hlt := (upReached_iff hq hleast h).1 (evaluate_up.1 hdec).1
    omega
  · have hlt := (oversized_iff hq hleast hmost h).1 (evaluate_down.1 hdec).1.2.2.1
    omega
  · obtain ⟨x, hd, -⟩ := evaluate_revert.1 hdec
    have hp := h.calm.pending
    rw [hd.1] at hp
    simp at hp

/-- an evaluation above the ideal size counts the poll, and scales down once the count suffices -/
theorem decision_above (hn : T.idealSize L least most < p.status.threadCount) :
    (T.decision s p = .none ∧ (s.lowUtilPolls + 1) % 2 ^ 32 < T.scaleDownSustainPolls s.consecutiveFailedDowns) ∨
      ∃ t, T.decision s p = .down t ∧ T.idealSize L least most ≤ t ∧ t < p.status.threadCount := by
  have ho := (oversized_iff hq hleast hmost h).2 hn
  have hnotup : ¬ T.UpReached s p.status p.context := by
    rw [upReached_iff hq hleast h]
    omega
  have hsat : ¬ T.Saturated s p.status p.context := by
    intro hsat
    refine hnotup ⟨h.calm.pending, hsat, ?_⟩
    simp [h.unthrottled]
  rcases Nat.lt_or_ge ((s.lowUtilPolls + 1) % 2 ^ 32) (T.scaleDownSustainPolls s.consecutiveFailedDowns) with hlt | hge
  · refine Or.inl ⟨?_, hlt⟩
    have hnotdown : ¬ T.DownReached s p.status p.context := fun hd => absurd hd.2.2.2 (not_le.2 hlt)
    unfold decision
    rw [evaluate_snd, h.calm.pending]
    simp [hnotup, hnotdown]
  · refine Or.inr ⟨_, evaluate_down.2 ⟨⟨h.calm.pending, hsat, ho, hge⟩, rfl⟩, ?_, ho⟩
    exact idealSize_le_target hq hleast hmost h ho

end Decisions

/-! ## Runs -/

section Runs

variable {s : ℕ → InstanceState} {p : ℕ → Poll}

theorem driveStep_none {s : InstanceState} {p : Poll} (hp : s.pendingValidation = none) (h : T.decision s p = .none) :
    T.driveStep s p = T.freeState s p.status p.context := by
  apply driveStep_free hp
  intro ha
  have hord := ha.2
  rw [h] at hord
  simp [ScaleAction.isOrdinary] at hord

/-- the size after a poll, by its decision -/
theorem ConstantLoad.size_of (h : ConstantLoad T L least most s p) {k : ℕ} {action : ScaleAction}
    (hdec : T.decision (s k) (p k) = action) :
    (p (k + 1)).status.threadCount = action.target.getD (p k).status.threadCount := by
  rw [h.size, hdec]

variable (hup : T.cfg.scaleUpMinGain = 0) (hdown : T.cfg.scaleDownRevertDrop = 0)
  (hq : T.cfg.scaleUpThreshold < 1) (hleast : 0 < least) (hle : least ≤ most) (hmost : most ≤ u32Max)
  (h : ConstantLoad T L least most s p) (hs : Calm (s 0)) (hlow : least ≤ (p 0).status.threadCount)
  (hhigh : (p 0).status.threadCount ≤ most)

include hup hdown hq hleast hle hmost h hs hlow hhigh

/-- every poll of the run is one of a calm state on a pool within the bounds -/
theorem loadPoll (k : ℕ) : LoadPoll T L least most (s k) (p k) := by
  induction k with
  | zero =>
    exact ⟨hs, h.util 0, h.unthrottled 0, h.min_count 0, h.max_count 0, hlow, hhigh⟩
  | succ k ih =>
    have hcalm : Calm (s (k + 1)) := by rw [h.state]; exact driveStep_calm hup hdown ih.calm (p k)
    have hideal : T.idealSize L least most ≤ most := max_le hle (min_le_left _ _)
    have hl := ih.low
    have hh := ih.high
    have hbounds : least ≤ (p (k + 1)).status.threadCount ∧ (p (k + 1)).status.threadCount ≤ most := by
      rcases Nat.lt_trichotomy (p k).status.threadCount (T.idealSize L least most) with hlt | heq | hgt
      · rw [h.size_of (decision_below hq hleast ih hlt)]
        change least ≤ (p k).status.threadCount + 1 ∧ (p k).status.threadCount + 1 ≤ most
        omega
      · rw [h.size_of (decision_at hq hleast hmost ih heq)]
        exact ⟨hl, hh⟩
      · rcases decision_above hq hleast hmost ih hgt with ⟨hnone, -⟩ | ⟨t, ht, htl, hth⟩
        · rw [h.size_of hnone]
          exact ⟨hl, hh⟩
        · rw [h.size_of ht]
          change least ≤ t ∧ t ≤ most
          have hN : least ≤ T.idealSize L least most := le_max_left _ _
          omega
    exact ⟨hcalm, h.util _, h.unthrottled _, h.min_count _, h.max_count _, hbounds.1, hbounds.2⟩

/-- above the ideal size the pool shrinks sooner or later -/
theorem eventually_smaller {k : ℕ} (hk : T.idealSize L least most < (p k).status.threadCount)
    (hsus : ∀ failures, T.scaleDownSustainPolls failures ≤ u32Max) :
    ∃ j, k ≤ j ∧ T.idealSize L least most ≤ (p j).status.threadCount ∧
      (p j).status.threadCount < (p k).status.threadCount := by
  by_contra hstuck
  have hpoll := loadPoll hup hdown hq hleast hle hmost h hs hlow hhigh
  have hquiet : ∀ i, (p (k + i)).status.threadCount = (p k).status.threadCount →
      T.decision (s (k + i)) (p (k + i)) = .none ∧ ((s (k + i)).lowUtilPolls + 1) % 2 ^ 32 < u32Max := by
    intro i hi
    rcases decision_above hq hleast hmost (hpoll (k + i)) (hi ▸ hk) with ⟨hnone, hlt⟩ | ⟨t, ht, htl, hth⟩
    · exact ⟨hnone, hlt.trans_le (hsus _)⟩
    · have hsize : (p (k + i + 1)).status.threadCount = t := h.size_of ht
      exact (hstuck ⟨k + i + 1, by omega, by rw [hsize]; exact htl, by rw [hsize, ← hi]; exact hth⟩).elim
  -- as long as nothing is proposed, the counter grows with every poll
  have hgrow : ∀ i, (p (k + i)).status.threadCount = (p k).status.threadCount ∧
      (s (k + i)).lowUtilPolls = ((s k).lowUtilPolls + i) % 2 ^ 32 := by
    intro i
    induction i with
    | zero => exact ⟨rfl, (Nat.mod_eq_of_lt (hpoll k).calm.low).symm⟩
    | succ i ih =>
      obtain ⟨hsize, hcount⟩ := ih
      have hnone := (hquiet i hsize).1
      have hover := (oversized_iff hq hleast hmost (hpoll (k + i))).2 (hsize ▸ hk)
      refine ⟨(h.size_of hnone).trans hsize, ?_⟩
      calc (s (k + i + 1)).lowUtilPolls
          = (T.freeState (s (k + i)) (p (k + i)).status (p (k + i)).context).lowUtilPolls := by
            rw [h.state, driveStep_none (hpoll (k + i)).calm.pending hnone]
        _ = ((s (k + i)).lowUtilPolls + 1) % 2 ^ 32 := by
            rw [freeState_lowUtil]
            exact if_pos hover
        _ = ((s k).lowUtilPolls + (i + 1)) % 2 ^ 32 := by
            rw [hcount, Nat.mod_add_mod, Nat.add_assoc]
  have hl := (hpoll k).calm.low
  obtain ⟨hsize, hcount⟩ := hgrow (2 * 2 ^ 32 - 2 - (s k).lowUtilPolls)
  have hfull := (hquiet _ hsize).2
  rw [hcount] at hfull
  unfold u32Max at hfull
  omega

/-- the sizes reach the ideal one -/
theorem eventually_ideal (hsus : ∀ failures, T.scaleDownSustainPolls failures ≤ u32Max) :
    ∃ K, (p K).status.threadCount = T.idealSize L least most := by
  have hpoll := loadPoll hup hdown hq hleast hle hmost h hs hlow hhigh
  let N := T.idealSize L least most
  let rank (k : ℕ) : ℕ := ((p k).status.threadCount - N) + (N - (p k).status.threadCount)
  have hdrop : ∀ k, (p k).status.threadCount ≠ N → ∃ j, k ≤ j ∧ ((p j).status.threadCount = N ∨ rank j < rank k) := by
    intro k hne
    rcases Nat.lt_or_gt_of_ne hne with hlt | hgt
    · have hsize : (p (k + 1)).status.threadCount = (p k).status.threadCount + 1 :=
        h.size_of (decision_below hq hleast (hpoll k) hlt)
      refine ⟨k + 1, Nat.le_succ k, Or.inr ?_⟩
      simp only [rank, hsize]
      omega
    · obtain ⟨j, hkj, hN, hj⟩ := eventually_smaller hup hdown hq hleast hle hmost h hs hlow hhigh hgt hsus
      refine ⟨j, hkj, Or.inr ?_⟩
      simp only [rank]
      omega
  obtain ⟨K, -, hK⟩ := Core.eventually_of_rank rank hdrop 0
  exact ⟨K, hK⟩

/-- up to the ideal size the pool only grows, and not past it -/
theorem step_below {k : ℕ} (hk : (p k).status.threadCount ≤ T.idealSize L least most) :
    (p (k + 1)).status.threadCount ≤ T.idealSize L least most ∧
      (p k).status.threadCount ≤ (p (k + 1)).status.threadCount ∧ ∀ t, T.decision (s k) (p k) ≠ .down t := by
  have hpoll := loadPoll hup hdown hq hleast hle hmost h hs hlow hhigh k
  rcases hk.lt_or_eq with hlt | heq
  · have hdec := decision_below hq hleast hpoll hlt
    rw [h.size_of hdec, hdec]
    exact ⟨hlt, Nat.le_succ _, fun t => by simp⟩
  · have hdec := decision_at hq hleast hmost hpoll heq
    rw [h.size_of hdec, hdec]
    exact ⟨hk, le_rfl, fun t => by simp⟩

/-- from the ideal size on the pool only shrinks, and not past it -/
theorem step_above {k : ℕ} (hk : T.idealSize L least most ≤ (p k).status.threadCount) :
    T.idealSize L least most ≤ (p (k + 1)).status.threadCount ∧
      (p (k + 1)).status.threadCount ≤ (p k).status.threadCount ∧ ∀ t, T.decision (s k) (p k) ≠ .up t := by
  have hpoll := loadPoll hup hdown hq hleast hle hmost h hs hlow hhigh k
  have hnone : T.decision (s k) (p k) = .none → T.idealSize L least most ≤ (p (k + 1)).status.threadCount ∧
      (p (k + 1)).status.threadCount ≤ (p k).status.threadCount ∧ ∀ t, T.decision (s k) (p k) ≠ .up t := by
    intro hdec
    rw [h.size_of hdec, hdec]
    exact ⟨hk, le_rfl, fun t => by simp⟩
  rcases hk.lt_or_eq with hlt | heq
  · rcases decision_above hq hleast hmost hpoll hlt with ⟨hdec, -⟩ | ⟨t, hdec, htl, hth⟩
    · exact hnone hdec
    · rw [h.size_of hdec, hdec]
      exact ⟨htl, hth.le, fun t => by simp⟩
  · exact hnone (decision_at hq hleast hmost hpoll heq.symm)

end Runs

theorem scaleDownSustainPolls_le (hfit : T.polls.Fits) (failures : ℕ) : T.scaleDownSustainPolls failures ≤ u32Max := by
  unfold scaleDownSustainPolls
  rw [backoffPolls_eq hfit.sustain hfit.down_cap]
  split_ifs
  · exact hfit.sustain
  · exact (Core.backoff_le _ _ _).trans (max_le hfit.sustain hfit.down_cap)

/-- under a constant load, with validation disabled and every proposal applied: from every reachable state and every size
within the bounds the pool moves in one direction, reaches the ideal size, and stays there without proposals -/
theorem converges (T : ThresholdEngine) (hfit : T.polls.Fits) (hup : T.cfg.scaleUpMinGain = 0)
    (hdown : T.cfg.scaleDownRevertDrop = 0) (hq : T.cfg.scaleUpThreshold < 1) (L : ℚ) (least most : ℕ)
    (hleast : 0 < least) (hle : least ≤ most) (hmost : most ≤ u32Max) (es : List DriveEvent) (s : ℕ → InstanceState)
    (p : ℕ → Poll) (hs : s 0 = Core.run T.drive .new es) (h : ConstantLoad T L least most s p)
    (hlow : least ≤ (p 0).status.threadCount) (hhigh : (p 0).status.threadCount ≤ most) :
    let n (k : ℕ) : ℕ := (p k).status.threadCount
    let N := max least (min most ⌈L / T.cfg.scaleUpThreshold⌉₊)
    (Monotone n ∧ (∀ k t, T.decision (s k) (p k) ≠ .down t) ∨
      Antitone n ∧ ∀ k t, T.decision (s k) (p k) ≠ .up t) ∧
    ∃ K, ∀ k, K ≤ k → n k = N ∧ T.decision (s k) (p k) = .none := by
  intro n N
  have hcalm : Calm (s 0) := by rw [hs]; exact run_calm hup hdown es
  have hsus := scaleDownSustainPolls_le hfit
  have hbelow : ∀ k, n k ≤ N → _ := fun k =>
    step_below hup hdown hq hleast hle hmost h hcalm hlow hhigh (k := k)
  have habove : ∀ k, N ≤ n k → _ := fun k =>
    step_above hup hdown hq hleast hle hmost h hcalm hlow hhigh (k := k)
  refine ⟨?_, ?_⟩
  · rcases Nat.le_total (n 0) N with h0 | h0
    · have hall : ∀ k, n k ≤ N := by
        intro k
        induction k with
        | zero => exact h0
        | succ k ih => exact (hbelow k ih).1
      exact Or.inl ⟨monotone_nat_of_le_succ fun k => (hbelow k (hall k)).2.1, fun k => (hbelow k (hall k)).2.2⟩
    · have hall : ∀ k, N ≤ n k := by
        intro k
        induction k with
        | zero => exact h0
        | succ k ih => exact (habove k ih).1
      exact Or.inr ⟨antitone_nat_of_succ_le fun k => (habove k (hall k)).2.1, fun k => (habove k (hall k)).2.2⟩
  · obtain ⟨K, hK⟩ := eventually_ideal hup hdown hq hleast hle hmost h hcalm hlow hhigh hsus
    have hstay : ∀ k, K ≤ k → n k = N := by
      intro k hk
      induction k, hk using Nat.le_induction with
      | base => exact hK
      | succ k _ ih =>
        have h1 := (hbelow k ih.le).1
        have h2 := (habove k ih.ge).1
        exact le_antisymm h1 h2
    refine ⟨K, fun k hk => ⟨hstay k hk, ?_⟩⟩
    exact decision_at hq hleast hmost (loadPoll hup hdown hq hleast hle hmost h hcalm hlow hhigh k) (hstay k hk)

/-! ## Such runs exist -/

/-- the poll of a pool of `n` workers at `now` -/
def pollOf (L : ℚ) (least most : ℕ) (now : Instant) (n : ℕ) : Poll where
  status := { threadCount := n, perThreadUtil := min 1 (L / n) }
  context := { now := now, minThreadCount := least, maxThreadCount := most }
  appliedAt := some now

/-- the state and the size before poll `k`, from a fresh state and `size` workers, with a poll every ten seconds -/
def loadRun (T : ThresholdEngine) (L : ℚ) (least most size : ℕ) : ℕ → InstanceState × ℕ
  | 0 => (.new, size)
  | k + 1 =>
    let x := loadRun T L least most size k
    let p := pollOf L least most (fromSecs (10 * k)) x.2
    (T.driveStep x.1 p, (T.decision x.1 p).target.getD x.2)

theorem loadRun_constantLoad (T : ThresholdEngine) (L : ℚ) (least most size : ℕ) :
    ConstantLoad T L least most (fun k => (T.loadRun L least most size k).1)
      fun k => pollOf L least most (fromSecs (10 * k)) (T.loadRun L least most size k).2 :=
  ⟨fun _ => rfl, fun _ => rfl, fun _ => rfl, fun _ => rfl, fun _ => rfl, fun _ => rfl, fun _ => rfl⟩

/-- three and a half busy workers need four at the default threshold -/
theorem converges_four :
    let quiet : ThresholdEngine :=
      { cfg := { scaleUpMinGain := 0, scaleDownRevertDrop := 0 }, valid := by decide +kernel }
    ∃ K, ∀ k, K ≤ k → (quiet.loadRun (7 / 2) 2 8 7 k).2 = 4 := by
  intro quiet
  let s (k : ℕ) : InstanceState := (quiet.loadRun (7 / 2) 2 8 7 k).1
  let p (k : ℕ) : Poll := pollOf (7 / 2) 2 8 (fromSecs (10 * k)) (quiet.loadRun (7 / 2) 2 8 7 k).2
  have hload : quiet.ConstantLoad (7 / 2) 2 8 s p := quiet.loadRun_constantLoad (7 / 2) 2 8 7
  obtain ⟨-, K, hK⟩ := converges quiet standard_fits rfl rfl (by norm_num [quiet]) (7 / 2) 2 8 (by decide) (by decide)
    (by decide) [] s p rfl hload (by decide) (by decide)
  refine ⟨K, fun k hk => (hK k hk).1.trans ?_⟩
  decide +kernel

end IoThreadController.ThresholdEngine
