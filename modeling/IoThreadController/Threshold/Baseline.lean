/-
The baseline that a validated action is judged against.

- `Judged`: the stored baseline is the rate of a window that starts at a counted sample, strictly before the proposing
  poll and no earlier than the end of the last validation or grace period.
- `Measured`: a poll that starts a validation finds such a window open, and has counters itself.
- `Anchored`: the invariant. No window starts before the last validation or grace period ended.
- `baseline_measured`: with a monotonic clock, in every run of measured polls every validated action is so judged.
-/
import IoThreadController.Threshold.Windows

namespace IoThreadController.ThresholdEngine

variable {T : ThresholdEngine} {s : InstanceState} {p : Poll}

/-- a poll that starts a validation has counters, and finds a window open since an earlier counted sample -/
def Measured (T : ThresholdEngine) (x : InstanceState × Trace) : DriveEvent → Prop
  | .forget => True
  | .poll p => T.StartsValidation x.1 p → p.status.perf.isSome = true ∧
    match x.1.openWindow with
    | none => False
    | some w => w.at' < p.context.now ∧ w ∈ x.2.counted ∧ w.ioCount ≤ ioTotal p.status.perf

instance (x : InstanceState × Trace) : ∀ e : DriveEvent, Decidable (T.Measured x e)
  | .forget => isTrue trivial
  | .poll _ => by
    unfold Measured
    exact match x.1.openWindow with
      | none => inferInstance
      | some _ => inferInstance

/-- what is stored when a poll starts a validation: the rate since `w`, which is zero only for an idle VM -/
def JudgedBy (x : InstanceState × Trace) (p : Poll) (pending : PendingValidation) (w : IoSample) : Prop :=
  w.at' < p.context.now ∧ (noteTrace x.1 (.poll p) x.2).settled ≤ w.at' ∧ p.status.perf.isSome = true ∧
    w.ioCount ≤ ioTotal p.status.perf ∧ pending.baselineIops = iopsRate w p.sample ∧
    (pending.baselineIops = 0 →
      round (((ioTotal p.status.perf - w.ioCount : ℕ) : ℚ) / asSecs (p.context.now - w.at')) = 0)

instance (x : InstanceState × Trace) (pending : PendingValidation) (w : IoSample) :
    Decidable (JudgedBy x p pending w) := by unfold JudgedBy; infer_instance

/-- every validation that starts in this event is judged against a measured baseline -/
def Judged (T : ThresholdEngine) (x : InstanceState × Trace) : DriveEvent → Prop
  | .forget => True
  | .poll p =>
    match x.1.pendingValidation, (T.driveStep x.1 p).pendingValidation with
    | none, some pending => ∃ w ∈ x.2.counted, JudgedBy x p pending w
    | _, _ => True

instance (x : InstanceState × Trace) : ∀ e : DriveEvent, Decidable (T.Judged x e)
  | .forget => isTrue trivial
  | .poll p => by
    unfold Judged
    dsimp only
    exact match x.1.pendingValidation, (T.driveStep x.1 p).pendingValidation with
      | none, some _ => inferInstance
      | none, none | some _, _ => inferInstance

/-! ## The stored baseline -/

/-- an evaluation without a pending validation measures the open window -/
theorem baselinePhase_rate {w sample : IoSample} (h : s.openWindow = some w) :
    (T.baselinePhase s sample).currentBaselineIops = iopsRate w sample := by
  rcases baselinePhase_cases T s sample with
    ⟨hh, hb, he⟩ | ⟨v, hh, hb, he⟩ | ⟨j, hh, he⟩ | ⟨hh, _, he⟩ | ⟨hh, _, he⟩ | ⟨j, v, hh, _, he⟩ | ⟨j, v, hh, _, he⟩ <;>
  simp only [InstanceState.openWindow, hh] at h
  · rw [hb] at h; simp at h
  · rw [hb] at h; cases h; rw [he]
  · simp at h
  · simp at h
  · simp at h
  · cases h; rw [he]
  · cases h; rw [he]

/-- a validation that starts in a poll belongs to an applied action and stores the baseline of that poll -/
theorem pending_started {pending : PendingValidation} (h : s.pendingValidation = none)
    (hnew : (T.driveStep s p).pendingValidation = some pending) :
    T.StartsValidation s p ∧ pending.action = T.decision s p ∧
      pending.baselineThreadCount = p.status.threadCount ∧
      pending.baselineIops = (T.baselinePhase s p.sample).currentBaselineIops ∧
      ∃ at', p.appliedAt = some at' ∧ pending.validationStart = p.appliedSample at' ∧
        pending.pollsRemaining = T.validationSamplePolls ((T.decision s p).target.getD p.status.threadCount) := by
  have hfree : (T.freeState s p.status p.context).pendingValidation = none :=
    (freeState_frame T s p.status p.context).1.trans h
  rcases driveStep_cases T s p with
    ⟨q, hq, -, -⟩ | ⟨q, hd, -⟩ | ⟨-, he⟩ | ⟨at', -, happ, hord, hv, he⟩ | ⟨at', -, -, -, -, he⟩
  · rw [h] at hq; simp at hq
  · rw [hd.1] at h; simp at h
  · rw [he, hfree] at hnew; simp at hnew
  · rw [he] at hnew
    obtain rfl := Option.some.inj hnew
    exact ⟨startsValidation_of happ hord hv, rfl, rfl, (freeState_frame T s p.status p.context).2.2.2.2.1, at', happ,
      rfl, rfl⟩
  · have hreset := (resetAfterApplied_frame (T.freeState s p.status p.context) (T.decision s p)).1
    have hnone : (T.driveStep s p).pendingValidation = none := by rw [he]; exact hreset.trans hfree
    rw [hnone] at hnew
    simp at hnew

theorem asU64_eq_zero {x : ℤ} (h : asU64 x = 0) : x ≤ 0 := by
  unfold asU64 u64Max at h
  omega

/-- a zero rate over a window of positive length means that the operations round to none -/
theorem idle_of_zero {w : IoSample} (hlt : w.at' < p.context.now) (hzero : iopsRate w p.sample = 0) :
    round (((ioTotal p.status.perf - w.ioCount : ℕ) : ℚ) / asSecs (p.context.now - w.at')) = 0 := by
  have hrate : iopsRate w p.sample = _ := iopsRate_of_lt hlt
  rw [hzero] at hrate
  have hle := asU64_eq_zero hrate.symm
  have hnonneg : 0 ≤ round (((ioTotal p.status.perf - w.ioCount : ℕ) : ℚ) / asSecs (p.context.now - w.at')) := by
    rw [round_eq]
    apply Int.floor_nonneg.2
    have hq : (0 : ℚ) ≤ ((ioTotal p.status.perf - w.ioCount : ℕ) : ℚ) / asSecs (p.context.now - w.at') := by
      unfold asSecs
      positivity
    linarith
  exact le_antisymm hle hnonneg

/-! ## The invariant -/

/-- every window starts at or after the end of the last validation or grace period -/
structure Anchored (x : InstanceState × Trace) : Prop where
  tidy : x.1.Tidy
  settled_clock : x.2.settled ≤ x.2.clock
  window_settled : ∀ w, x.1.HasWindow w → x.2.settled ≤ w.at'

theorem initial_anchored : Anchored (.new, {}) := by
  refine ⟨InstanceState.new_tidy, le_rfl, ?_⟩
  intro w hw
  rcases hw with hw | hw
  · cases hw
  · cases hw

/-- nothing settles later than the poll that is being noted -/
theorem noteTrace_settled_le {x : InstanceState × Trace} (h : Anchored x) (hnow : x.2.clock ≤ p.context.now) :
    (noteTrace x.1 (.poll p) x.2).settled ≤ p.context.now := by
  simp only [noteTrace]
  split_ifs
  · exact le_rfl
  · exact h.settled_clock.trans hnow

theorem step_anchored {x : InstanceState × Trace} {e : DriveEvent} (h : Anchored x) (hc : Clocked x e) :
    Anchored (T.traced x e) := by
  refine ⟨drive_tidy h.tidy e, ?_, ?_⟩
  · cases e with
    | forget => exact Nat.zero_le _
    | poll p =>
      obtain ⟨hnow, happ⟩ := hc
      refine (noteTrace_settled_le h hnow).trans ?_
      change p.context.now ≤ p.appliedAt.getD p.context.now
      cases hat : p.appliedAt with
      | none => exact le_rfl
      | some at' => rw [hat] at happ; simpa using happ
  · intro w hw
    cases e with
    | forget =>
      rcases hw with hw | hw
      · cases hw
      · cases hw
    | poll p =>
      obtain ⟨hnow, happ⟩ := hc
      have hsettled := noteTrace_settled_le h hnow
      rcases driveStep_windows h.tidy hw with ⟨hold, hs⟩ | ⟨rfl, -⟩ | ⟨at', hat, rfl, -⟩
      · have hkeep : (noteTrace x.1 (.poll p) x.2).settled = x.2.settled := by simp only [noteTrace, if_neg hs]
        exact hkeep.le.trans (h.window_settled w hold)
      · exact hsettled
      · have hle : p.context.now ≤ at' := by rw [hat] at happ; simpa using happ
        exact hsettled.trans hle

theorem judged_of_measured {x : InstanceState × Trace} {e : DriveEvent} (h : Anchored x) (hm : T.Measured x e) :
    T.Judged x e := by
  cases e with
  | forget => trivial
  | poll p =>
    unfold Judged
    dsimp only
    split
    · rename_i pending hnone hsome
      obtain ⟨hstart, -, -, hbase, -⟩ := pending_started hnone hsome
      obtain ⟨hperf, hopen⟩ := hm hstart
      cases hw : x.1.openWindow with
      | none => rw [hw] at hopen; exact hopen.elim
      | some w =>
        rw [hw] at hopen
        obtain ⟨hlt, hcounted, hle⟩ := hopen
        have hrate : pending.baselineIops = iopsRate w p.sample := hbase.trans (baselinePhase_rate hw)
        have hnot : ¬ Settles x.1 := by
          intro hs
          simp only [Settles, hnone] at hs
          simp only [InstanceState.openWindow, hs] at hw
          simp at hw
        have hkeep : (noteTrace x.1 (.poll p) x.2).settled = x.2.settled := by simp only [noteTrace, if_neg hnot]
        refine ⟨w, hcounted, hlt, ?_, hperf, hle, hrate, fun hzero => idle_of_zero hlt (hrate ▸ hzero)⟩
        rw [hkeep]
        exact h.window_settled w (InstanceState.openWindow_hasWindow hw)
    · trivial

/-- with a monotonic clock, in every run of measured polls every validated action is judged against a measured
baseline -/
theorem baseline_measured (T : ThresholdEngine) (es : List DriveEvent) (hc : Core.Along T.traced Clocked (.new, {}) es)
    (hm : Core.Along T.traced T.Measured (.new, {}) es) : Core.Along T.traced T.Judged (.new, {}) es :=
  Core.along_of_inv Anchored (fun _ _ hx he => step_anchored hx he.1) (fun _ _ hx he => judged_of_measured hx he.2)
    initial_anchored (hc.and hm)

/-- a scale-up at the second poll, its failed verdict, grace, recovery, and the next scale-up -/
theorem baseline_measured_cycle :
    let tick (t : ℕ) (util : ℚ) (io : ℕ) : DriveEvent := .poll
      { status := { threadCount := 2, perThreadUtil := util, perf := some { readIoCount := io } }
        context := ⟨fromSecs t, 2, 8, 0, {}, 0⟩
        appliedAt := some (fromSecs t + 5) }
    Core.Along standard.traced standard.Judged (.new, {})
      [tick 0 (9 / 10) 0, tick 10 1 1000, tick 20 1 2000, tick 30 1 3000, tick 40 1 4000, tick 50 1 5000, tick 60 1 6000,
        tick 70 1 7000, tick 80 1 8000, tick 90 1 9000] :=
  baseline_measured standard _ (by decide +kernel) (by decide +kernel)

/-- a VM that is busy at the first poll after its discovery is scaled up against a baseline of zero -/
theorem first_poll_unmeasured :
    ¬ Core.Along standard.traced standard.Judged (.new, {})
      [.poll
        { status := { threadCount := 2, perThreadUtil := 1, perf := some { readIoCount := 1000 } }
          context := ⟨fromSecs 10, 2, 8, 0, {}, 0⟩
          appliedAt := some (fromSecs 10) }] := by
  decide +kernel

end IoThreadController.ThresholdEngine
