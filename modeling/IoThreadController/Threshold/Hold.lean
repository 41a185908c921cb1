/-
The post-revert hold: how long a reverted scale-up keeps the next one away, and what the baseline measures after it.

- `grace_run`, `recovery_run`: without an applied scale-down the hold counts down, and proposes no scale-up meanwhile.
- `hold_length`: after the failure number `f` in a row the hold blocks exactly `holdPolls f` evaluations, and the baseline
  of the next one spans the last `post_revert_up_recovery` of them. An applied scale-down ends the hold, and the hold
  never keeps a scale-down away.
-/
import IoThreadController.Threshold.Baseline
import IoThreadController.Threshold.History

namespace IoThreadController.ThresholdEngine

variable {T : ThresholdEngine} {s : InstanceState} {p q : Poll}

/-- evaluations that the hold blocks after `failures` failed scale-ups in a row -/
def holdPolls (T : ThresholdEngine) (failures : ℕ) : ℕ :=
  if T.polls.postRevertUpBackoffMax = 0 then T.polls.postRevertUpGrace + T.polls.postRevertUpRecovery
  else min ((T.polls.postRevertUpGrace + T.polls.postRevertUpRecovery) * 2 ^ (failures - 1))
    (max (T.polls.postRevertUpGrace + T.polls.postRevertUpRecovery) T.polls.postRevertUpBackoffMax)

/-- the poll applies a scale-down -/
def AppliesDown (T : ThresholdEngine) (s : InstanceState) (p : Poll) : Prop :=
  T.Applies s p ∧ (T.decision s p).isUp = false

instance (s : InstanceState) (p : Poll) : Decidable (T.AppliesDown s p) := by unfold AppliesDown; infer_instance

theorem appliesDown_of {t : ℕ} (h : T.decision s p = .down t) (happ : p.appliedAt.isSome = true) :
    T.AppliesDown s p := by
  refine ⟨⟨happ, ?_⟩, ?_⟩ <;> rw [h] <;> rfl

/-! ## Length -/

theorem recovery_le_holdPolls (T : ThresholdEngine) (failures : ℕ) :
    T.polls.postRevertUpRecovery ≤ T.holdPolls failures := by
  unfold holdPolls
  split_ifs
  · exact Nat.le_add_left _ _
  · calc T.polls.postRevertUpRecovery
        ≤ T.polls.postRevertUpGrace + T.polls.postRevertUpRecovery := Nat.le_add_left _ _
      _ ≤ Core.backoff _ (failures - 1) T.polls.postRevertUpBackoffMax := Core.base_le_backoff _ _ _

/-- the grace period is what the hold leaves before its recovery window -/
theorem gracePolls_eq (hbase : T.polls.postRevertUpGrace + T.polls.postRevertUpRecovery < 2 ^ 32)
    (hfit : T.polls.Fits) (failures : ℕ) :
    T.postRevertUpGracePolls (min failures u32Max) = T.holdPolls failures - T.polls.postRevertUpRecovery := by
  have hle : T.polls.postRevertUpGrace + T.polls.postRevertUpRecovery ≤ u32Max := Nat.le_sub_one_of_lt hbase
  have hsum : satAdd32 T.polls.postRevertUpGrace T.polls.postRevertUpRecovery =
      T.polls.postRevertUpGrace + T.polls.postRevertUpRecovery := min_eq_left hle
  unfold postRevertUpGracePolls
  dsimp only
  rw [hsum, backoffPolls_failures hle hfit.up_cap failures 1 le_rfl]
  rfl

/-! ## Countdown -/

/-- a state whose hold has `k` grace polls left -/
def InGrace (k : ℕ) (s : InstanceState) : Prop := s.pendingValidation = none ∧ s.postRevertUpHold = some (.grace k)

/-- a state whose hold measures the recovery window `w` for `k` more blocked polls -/
def InRecovery (w : IoSample) (k : ℕ) (s : InstanceState) : Prop :=
  s.pendingValidation = none ∧ s.postRevertUpHold = some (.recovery (k + 1) w)

/-- while the hold blocks, a poll that applies no scale-down applies nothing -/
theorem blocked_step (hp : s.pendingValidation = none) (hb : s.holdBlocks T.polls.postRevertUpRecovery = true)
    (hd : ¬ T.AppliesDown s p) : T.driveStep s p = T.freeState s p.status p.context := by
  apply driveStep_free hp
  intro ha
  refine hd ⟨ha, ?_⟩
  rcases hdec : T.decision s p with _ | t | t | t
  · rfl
  · have hfree := (evaluate_up.1 hdec).1.2.1.1
    rw [hb] at hfree
    simp at hfree
  · rfl
  · rfl

theorem blocked_decision (hb : s.holdBlocks T.polls.postRevertUpRecovery = true) (q : Poll) (t : ℕ) :
    T.decision s q ≠ .up t := by
  intro h
  have hfree := (evaluate_up.1 h).1.2.1.1
  rw [hb] at hfree
  simp at hfree

theorem inGrace_blocks {k : ℕ} (h : InGrace k s) (hk : 0 < k ∨ T.polls.postRevertUpRecovery ≠ 0) :
    s.holdBlocks T.polls.postRevertUpRecovery = true := by
  simp [InstanceState.holdBlocks, h.2, hk]

theorem inRecovery_blocks {w : IoSample} {k : ℕ} (h : InRecovery w (k + 1) s) :
    s.holdBlocks T.polls.postRevertUpRecovery = true := by
  simp [InstanceState.holdBlocks, h.2]

/-- the pending validation and the hold after a blocked poll -/
theorem blocked_hold (hp : s.pendingValidation = none) (hb : s.holdBlocks T.polls.postRevertUpRecovery = true)
    (hd : ¬ T.AppliesDown s p) :
    (T.driveStep s p).pendingValidation = none ∧
      (T.driveStep s p).postRevertUpHold = (T.baselinePhase s p.sample).postRevertUpHold := by
  obtain ⟨h1, -, -, -, -, h6⟩ := freeState_frame T s p.status p.context
  rw [blocked_step hp hb hd]
  exact ⟨h1.trans hp, h6⟩

theorem inGrace_step {k : ℕ} (h : InGrace (k + 1) s) (hd : ¬ T.AppliesDown s p) : InGrace k (T.driveStep s p) := by
  obtain ⟨hp, hhold⟩ := blocked_hold h.1 (inGrace_blocks h (Or.inl (Nat.succ_pos k))) hd
  refine ⟨hp, hhold.trans ?_⟩
  simp [baselinePhase, InstanceState.advancePostRevertUpHold, h.2]

/-- the first poll after grace anchors the recovery window at its own sample -/
theorem inGrace_over (h : InGrace 0 s) {r : ℕ} (hr : T.polls.postRevertUpRecovery = r + 1) (hd : ¬ T.AppliesDown s p) :
    InRecovery p.sample r (T.driveStep s p) := by
  have hne : T.polls.postRevertUpRecovery ≠ 0 := by omega
  obtain ⟨hp, hhold⟩ := blocked_hold h.1 (inGrace_blocks h (Or.inr hne)) hd
  refine ⟨hp, hhold.trans ?_⟩
  simp [baselinePhase, InstanceState.advancePostRevertUpHold, h.2, hr]

theorem inRecovery_step {w : IoSample} {k : ℕ} (h : InRecovery w (k + 1) s) (hd : ¬ T.AppliesDown s p) :
    InRecovery w k (T.driveStep s p) := by
  obtain ⟨hp, hhold⟩ := blocked_hold h.1 (inRecovery_blocks h) hd
  refine ⟨hp, hhold.trans ?_⟩
  simp [baselinePhase, InstanceState.advancePostRevertUpHold, h.2]

/-- no scale-down is applied along these polls -/
abbrev NoDowns (T : ThresholdEngine) (s : InstanceState) (qs : List Poll) : Prop :=
  Core.Along T.driveStep (fun s p => ¬ T.AppliesDown s p) s qs

theorem grace_run {k : ℕ} {qs : List Poll} (h : InGrace (k + qs.length) s) (hd : T.NoDowns s qs) :
    InGrace k (Core.run T.driveStep s qs) :=
  Core.run_countdown InGrace (fun _ _ _ hs hp => inGrace_step hs hp) h hd

theorem recovery_run {w : IoSample} {k : ℕ} {qs : List Poll} (h : InRecovery w (k + qs.length) s)
    (hd : T.NoDowns s qs) : InRecovery w k (Core.run T.driveStep s qs) :=
  Core.run_countdown (InRecovery w) (fun _ _ _ hs hp => inRecovery_step hs hp) h hd

/-- polls past the grace period: the first of them anchors the recovery window -/
theorem hold_run {grace r k : ℕ} (hr : T.polls.postRevertUpRecovery = r + 1) {qs : List Poll} (h : InGrace grace s)
    (hlen : qs.length + k = grace + 1 + r) (hk : k ≤ r) (hd : T.NoDowns s qs) :
    ∃ w, qs[grace]? = some w ∧ InRecovery w.sample k (Core.run T.driveStep s qs) := by
  have hlt : grace < qs.length := by omega
  have hsplit : qs = qs.take grace ++ qs[grace] :: qs.drop (grace + 1) := by
    rw [List.cons_getElem_drop_succ, List.take_append_drop]
  refine ⟨qs[grace], List.getElem?_eq_getElem hlt, ?_⟩
  have hd' : T.NoDowns s (qs.take grace ++ qs[grace] :: qs.drop (grace + 1)) := by rwa [← hsplit]
  obtain ⟨hbefore, hat, hafter⟩ := (Core.along_append _ _ _ _ _).1 hd'
  have hrun : Core.run T.driveStep s qs = Core.run T.driveStep
      (T.driveStep (Core.run T.driveStep s (qs.take grace)) qs[grace]) (qs.drop (grace + 1)) := by
    rw [← Core.run_cons, ← Core.run_append, ← hsplit]
  rw [hrun]
  have hover : InGrace 0 (Core.run T.driveStep s (qs.take grace)) := by
    apply grace_run _ hbefore
    rw [List.length_take_of_le hlt.le, zero_add]
    exact h
  apply recovery_run _ hafter
  have hsum : k + (qs.drop (grace + 1)).length = r := by rw [List.length_drop]; omega
  rw [hsum]
  exact inGrace_over hover hr hat

/-! ## The hold after a failed scale-up -/

/-- a reverted scale-up starts the grace period of its failure count -/
theorem inGrace_of_verdict (hbase : T.polls.postRevertUpGrace + T.polls.postRevertUpRecovery < 2 ^ 32)
    (hfit : T.polls.Fits) {x : InstanceState × Evidence} (h : Accurate x)
    (hv : T.verdict x.1 p = some (true, true)) :
    InGrace (T.holdPolls (T.witnessed x (.poll p)).2.failedUps - T.polls.postRevertUpRecovery)
      (T.witnessed x (.poll p)).1 := by
  have hfailures : (T.witnessed x (.poll p)).2.failedUps = x.2.failedUps + 1 := by
    simp [Core.withHistory, noteEvidence, hv]
  obtain ⟨pending, hd, hup, hrev⟩ := verdict_some hv
  obtain ⟨n, ha⟩ := ScaleAction.isUp_iff.1 hup
  obtain ⟨t, ht⟩ := ScaleAction.isRevert_iff.1 hrev
  obtain ⟨pending', hd', htarget⟩ := evaluate_revert.1 ht
  obtain rfl : pending' = pending := Option.some.inj (hd'.1.symm.trans hd.1)
  have hstate : (T.witnessed x (.poll p)).1 =
      (T.settleValidation x.1 pending' p.status.perThreadUtil (sampleOf p.status p.context)).1 := by
    change T.driveStep x.1 p = _
    rw [driveStep_unapplied (not_applies_of_pending hd.1), evaluate_due hd.1 hd.2]
  rw [hfailures, ← gracePolls_eq hbase hfit, ← satAdd32_min, ← h.ups, hstate, settle_failed_up ha htarget]
  exact ⟨rfl, rfl⟩

/-- after the revert of a scale-up, number `f` of its row: unless a scale-down is applied, the next `holdPolls f`
evaluations propose no scale-up, the one after them is free and measures the last `post_revert_up_recovery` polls -/
theorem hold_length (T : ThresholdEngine)
    (hbase : T.polls.postRevertUpGrace + T.polls.postRevertUpRecovery < 2 ^ 32)
    (hfit : T.polls.Fits) (es : List DriveEvent) (p : Poll)
    (hrev : T.verdict (Core.run T.witnessed (.new, {}) es).1 p = some (true, true)) :
    let g := T.polls.postRevertUpGrace
    let r := T.polls.postRevertUpRecovery
    let m := T.polls.postRevertUpBackoffMax
    let x := Core.run T.witnessed (.new, {}) (es ++ [.poll p])
    let H := if m = 0 then g + r else min ((g + r) * 2 ^ (x.2.failedUps - 1)) (max (g + r) m)
    (∀ qs : List Poll, T.NoDowns x.1 qs → ∀ q : Poll,
      let y := Core.run T.driveStep x.1 qs
      (qs.length < H → ∀ t, T.decision y q ≠ .up t) ∧
      (qs.length = H → y.pendingValidation = none ∧ y.holdBlocks r = false ∧
        (0 < r → ∃ w, qs[H - r]? = some w ∧
          (T.evaluateInstance y q.status q.context).1.currentBaselineIops = iopsRate w.sample q.sample))) ∧
    (∀ y q t, T.decision y q = .down t → q.appliedAt.isSome = true → (T.driveStep y q).postRevertUpHold = none) ∧
    (∀ y q t, T.decision { y with postRevertUpHold := none } q = .down t → T.decision y q = .down t) := by
  intro g r m x H
  have hx : x = T.witnessed (Core.run T.witnessed (.new, {}) es) (.poll p) := by
    simp only [x, Core.run_append, Core.run_cons, Core.run_nil]
  have hstart : InGrace (H - r) x.1 := by
    have h := inGrace_of_verdict hbase hfit (run_accurate T es) hrev
    rw [← hx] at h
    exact h
  have hrH : r ≤ H := recovery_le_holdPolls T x.2.failedUps
  refine ⟨?_, ?_, ?_⟩
  · intro qs hd q y
    have hearly : qs.length ≤ H - r → InGrace (H - r - qs.length) y := by
      intro hle
      apply grace_run _ hd
      have hsum : H - r - qs.length + qs.length = H - r := by omega
      rw [hsum]
      exact hstart
    have hlate : ∀ r', r = r' + 1 → H - r < qs.length → qs.length ≤ H →
        ∃ w, qs[H - r]? = some w ∧ InRecovery w.sample (H - qs.length) y := by
      intro r' hr hlt hle
      exact hold_run hr hstart (by omega) (by omega) hd
    refine ⟨?_, ?_⟩
    · intro hlt
      rcases Nat.lt_or_ge (H - r) qs.length with hpast | hle
      · obtain ⟨r', hr⟩ := Nat.exists_eq_succ_of_ne_zero (by omega : r ≠ 0)
        obtain ⟨w, -, hrec⟩ := hlate r' hr hpast hlt.le
        obtain ⟨k, hk⟩ := Nat.exists_eq_succ_of_ne_zero (by omega : H - qs.length ≠ 0)
        rw [hk] at hrec
        exact blocked_decision (inRecovery_blocks hrec) q
      · apply blocked_decision
        exact inGrace_blocks (hearly hle) (by change 0 < H - r - qs.length ∨ r ≠ 0; omega)
    · intro hlen
      rcases Nat.eq_zero_or_pos r with hzero | hpos
      · have hgrace := hearly (by omega)
        rw [hlen, hzero, Nat.sub_zero, Nat.sub_self] at hgrace
        refine ⟨hgrace.1, ?_, fun h => by omega⟩
        simp [InstanceState.holdBlocks, hgrace.2, hzero]
      · obtain ⟨r', hr⟩ := Nat.exists_eq_succ_of_ne_zero hpos.ne'
        obtain ⟨w, hw, hrec⟩ := hlate r' hr (by omega) hlen.le
        rw [hlen, Nat.sub_self] at hrec
        refine ⟨hrec.1, ?_, fun _ => ⟨w, hw, ?_⟩⟩
        · simp [InstanceState.holdBlocks, hrec.2]
        · rw [evaluate_free hrec.1]
          have hrate := (freeState_frame T y q.status q.context).2.2.2.2.1
          refine hrate.trans ?_
          exact baselinePhase_rate (by simp [InstanceState.openWindow, hrec.2])
  · intro y q t hdec happ
    exact (driveStep_applied (appliesDown_of hdec happ).1).2.2.2
  · intro y q t hdec
    obtain ⟨⟨hp, hsat, hlow, hsus⟩, ht⟩ := evaluate_down.1 hdec
    refine evaluate_down.2 ⟨⟨hp, ?_, hlow, hsus⟩, ht⟩
    intro h
    exact hsat ⟨rfl, h.2⟩

/-- the first failure with the default settings: one grace poll, then a window of two -/
theorem hold_length_standard :
    let poll (t : ℕ) (util : ℚ) (io : ℕ) : Poll :=
      { status := { threadCount := 2, perThreadUtil := util, perf := some { readIoCount := io } }
        context := ⟨fromSecs t, 2, 8, 0, {}, 0⟩
        appliedAt := some (fromSecs t) }
    let busy (k : ℕ) : Poll := poll (10 * k) 1 (1000 * k)
    let x := Core.run standard.witnessed (.new, {})
      ([.poll (poll 0 (9 / 10) 0), .poll (busy 1), .poll (busy 2), .poll (busy 3)] ++ [.poll (busy 4)])
    standard.decision (Core.run standard.driveStep x.1 [busy 5, busy 6]) (busy 7) ≠ .up 3 ∧
      (standard.evaluateInstance (Core.run standard.driveStep x.1 [busy 5, busy 6, busy 7]) (busy 8).status
        (busy 8).context).1.currentBaselineIops = iopsRate (busy 6).sample (busy 8).sample := by
  intro poll busy x
  obtain ⟨hhold, -, -⟩ := hold_length standard (by decide) standard_fits
    [.poll (poll 0 (9 / 10) 0), .poll (busy 1), .poll (busy 2), .poll (busy 3)] (busy 4) (by decide +kernel)
  have hfailures : x.2.failedUps = 1 := by decide +kernel
  have hblocked := hhold [busy 5, busy 6] (by decide +kernel) (busy 7)
  have hfree := hhold [busy 5, busy 6, busy 7] (by decide +kernel) (busy 8)
  refine ⟨hblocked.1 ?_ 3, ?_⟩
  · rw [hfailures]
    decide
  · obtain ⟨w, hw, hrate⟩ := (hfree.2 (by rw [hfailures]; decide)).2.2 (by decide)
    rw [hfailures] at hw
    obtain rfl : busy 6 = w := Option.some.inj hw
    exact hrate

end IoThreadController.ThresholdEngine
