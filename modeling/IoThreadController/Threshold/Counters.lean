/-
Missing and restarted I/O counters.

A snapshot without counters reads as a total of zero, and a restarted counter reads as no operations. `CountersUsable`
says when the engine does not mistake either for a loss: a due verdict sees counters that would not regress even at a
rate of zero, and no poll without counters opens a baseline window.

- `verdictSpared_iff`: a verdict on lost counters is the verdict on a rate of zero.
- `counters_respected`: in a run of usable polls, lost counters never cause a revert and never raise a failure count, and
  every baseline and recovery window starts at a counted sample.
-/
import IoThreadController.Threshold.Windows

namespace IoThreadController.ThresholdEngine

variable {T : ThresholdEngine} {s : InstanceState} {p : Poll}

/-! ## Verdicts -/

/-- the counters of the validation window are gone: absent, or lower than at its start -/
def Lost (pending : PendingValidation) (p : Poll) : Prop :=
  p.status.perf = none ∨ ioTotal p.status.perf < pending.validationStart.ioCount

instance (pending : PendingValidation) (p : Poll) : Decidable (Lost pending p) := by unfold Lost; infer_instance

/-- a due verdict on lost counters neither reverts nor raises a failure count -/
def VerdictSpared (T : ThresholdEngine) (s : InstanceState) (p : Poll) : Prop :=
  match s.pendingValidation with
  | none => True
  | some pending =>
    pending.pollsRemaining = 0 → Lost pending p → (T.decision s p).isRevert = false ∧
      (T.evaluateInstance s p.status p.context).1.consecutiveFailedUps ≤ s.consecutiveFailedUps ∧
      (T.evaluateInstance s p.status p.context).1.consecutiveFailedDowns ≤ s.consecutiveFailedDowns

instance : Decidable (T.VerdictSpared s p) := by
  unfold VerdictSpared
  exact match s.pendingValidation with
    | none => inferInstance
    | some _ => inferInstance

theorem observed_lost {pending : PendingValidation} (h : Lost pending p) :
    iopsRate pending.validationStart p.sample = 0 := by
  refine iopsRate_stalled ?_
  rcases h with h | h
  · have hzero : p.sample.ioCount = 0 := by simp [Poll.sample, sampleOf, h, ioTotal]
    rw [hzero]
    exact Nat.zero_le _
  · exact h.le

/-- a kept action leaves the failure counts where they are or clears them -/
theorem settle_kept_counts {pending : PendingValidation} {util : ℚ} {sample : IoSample}
    (h : T.validationRevertTarget (iopsRate pending.validationStart sample) util pending = none) :
    (T.settleValidation s pending util sample).1.consecutiveFailedUps ≤ s.consecutiveFailedUps ∧
      (T.settleValidation s pending util sample).1.consecutiveFailedDowns ≤ s.consecutiveFailedDowns := by
  rw [settle_kept h]
  cases pending.action with
  | up n => exact ⟨Nat.zero_le _, le_rfl⟩
  | down n => exact ⟨le_rfl, Nat.zero_le _⟩
  | none => exact ⟨le_rfl, Nat.zero_le _⟩
  | revert n => exact ⟨le_rfl, Nat.zero_le _⟩

/-- a due verdict on lost counters is spared exactly when a rate of zero would be accepted -/
theorem verdictSpared_iff {pending : PendingValidation} (hd : Due s pending) (hl : Lost pending p) :
    T.VerdictSpared s p ↔ T.validationRevertTarget 0 p.status.perThreadUtil pending = none := by
  have hobs := observed_lost hl
  have heval : T.evaluateInstance s p.status p.context = T.settleValidation s pending p.status.perThreadUtil p.sample :=
    evaluate_due hd.1 hd.2
  constructor
  · intro h
    have hrev : (T.decision s p).isRevert = false := by
      simp only [VerdictSpared, hd.1] at h
      exact (h hd.2 hl).1
    cases hv : T.validationRevertTarget 0 p.status.perThreadUtil pending with
    | none => rfl
    | some t =>
      have hdec : T.decision s p = .revert t := evaluate_revert.2 ⟨pending, hd, by rw [← hv, ← hobs]; rfl⟩
      rw [hdec] at hrev
      cases hrev
  · intro h
    have hkept : T.validationRevertTarget (iopsRate pending.validationStart p.sample) p.status.perThreadUtil pending =
        none := by rw [hobs]; exact h
    simp only [VerdictSpared, hd.1]
    refine fun _ _ => ⟨?_, ?_⟩
    · unfold decision
      rw [heval, settle_kept hkept]
      rfl
    · rw [heval]
      exact settle_kept_counts hkept

/-! ## Runs -/

/-- every window of the state starts at a sample with counters -/
def WindowsCounted (s : InstanceState) (h : Trace) : Prop := ∀ w, s.HasWindow w → w ∈ h.counted

/-- the counters that a poll brings are good enough for what it does with them -/
def UsableAt (T : ThresholdEngine) (s : InstanceState) (p : Poll) : Prop :=
  match s.pendingValidation with
  | some pending =>
    pending.pollsRemaining = 0 → p.status.perf.isSome = true ∧
      (ioTotal p.status.perf < pending.validationStart.ioCount →
        T.validationRevertTarget 0 p.status.perThreadUtil pending = none)
  | none => p.status.perf.isSome = true ∨ ¬ (Anchors s ∨ T.AppliesUnvalidated s p)

instance : Decidable (T.UsableAt s p) := by
  unfold UsableAt
  exact match s.pendingValidation with
    | some _ => inferInstance
    | none => inferInstance

def CountersUsable (T : ThresholdEngine) (x : InstanceState × Trace) : DriveEvent → Prop
  | .forget => True
  | .poll p => T.UsableAt x.1 p

instance (x : InstanceState × Trace) : ∀ e : DriveEvent, Decidable (T.CountersUsable x e)
  | .forget => isTrue trivial
  | .poll _ => by unfold CountersUsable; infer_instance

/-- lost counters cause no revert and no failure count in this event, and no window without counters is left after it -/
def CountersRespected (T : ThresholdEngine) (x : InstanceState × Trace) (e : DriveEvent) : Prop :=
  (∀ p, e = .poll p → T.VerdictSpared x.1 p) ∧ WindowsCounted (T.traced x e).1 (T.traced x e).2

theorem verdictSpared_of_usable (h : T.UsableAt s p) : T.VerdictSpared s p := by
  cases hp : s.pendingValidation with
  | none => simp only [VerdictSpared, hp]
  | some pending =>
    by_cases hdue : pending.pollsRemaining = 0 ∧ Lost pending p
    · refine (verdictSpared_iff ⟨hp, hdue.1⟩ hdue.2).2 ?_
      simp only [UsableAt, hp] at h
      obtain ⟨hsome, hreset⟩ := h hdue.1
      rcases hdue.2 with hnone | hlt
      · rw [hnone] at hsome; simp at hsome
      · exact hreset hlt
    · simp only [VerdictSpared, hp]
      exact fun h1 h2 => absurd ⟨h1, h2⟩ hdue

/-- a poll that opens a baseline window has counters -/
theorem perf_of_usable (h : T.UsableAt s p) (ho : Anchors s ∨ T.AppliesUnvalidated s p) :
    p.status.perf.isSome = true := by
  cases hp : s.pendingValidation with
  | none =>
    simp only [UsableAt, hp] at h
    rcases h with h | h
    · exact h
    · exact absurd ho h
  | some pending =>
    have hdue : pending.pollsRemaining = 0 := by
      rcases ho with (hs | ⟨hnone, -⟩) | ⟨-, hu | hd⟩
      · simpa [Settles, hp] using hs
      · rw [hp] at hnone; simp at hnone
      · have hnone := hu.1.1; rw [hp] at hnone; simp at hnone
      · have hnone := hd.1.1; rw [hp] at hnone; simp at hnone
    simp only [UsableAt, hp] at h
    exact (h hdue).1

/-- windows stay counted over a usable poll -/
theorem poll_windowsCounted {h : Trace} (ht : s.Tidy) (hw : WindowsCounted s h) (hu : T.UsableAt s p) :
    WindowsCounted (T.driveStep s p) (noteTrace s (.poll p) h) := by
  intro w hwin
  rcases driveStep_windows ht hwin with ⟨hold, -⟩ | ⟨rfl, ha⟩ | ⟨at', happ, rfl, ha⟩
  · have hmem := hw w hold
    simp only [noteTrace]
    split_ifs
    · exact List.mem_cons_of_mem _ (List.mem_append_right _ hmem)
    · exact hmem
  · simp only [noteTrace, perf_of_usable hu (Or.inl ha), if_true]
    exact List.mem_cons_self
  · simp only [noteTrace, perf_of_usable hu (Or.inr ha), if_true]
    refine List.mem_cons_of_mem _ (List.mem_append_left _ ?_)
    simp [happ]

theorem step_windowsCounted {x : InstanceState × Trace} {e : DriveEvent}
    (hx : x.1.Tidy ∧ WindowsCounted x.1 x.2) (hu : T.CountersUsable x e) :
    (T.traced x e).1.Tidy ∧ WindowsCounted (T.traced x e).1 (T.traced x e).2 := by
  refine ⟨drive_tidy hx.1 e, ?_⟩
  cases e with
  | poll p => exact poll_windowsCounted hx.1 hx.2 hu
  | forget =>
    intro w hw
    rcases hw with hw | hw
    · cases hw
    · cases hw

/-- in every run of usable polls the engine never mistakes lost counters for lost performance -/
theorem counters_respected (T : ThresholdEngine) (es : List DriveEvent)
    (hu : Core.Along T.traced T.CountersUsable (.new, {}) es) :
    Core.Along T.traced T.CountersRespected (.new, {}) es := by
  refine Core.along_of_inv (fun x => x.1.Tidy ∧ WindowsCounted x.1 x.2) (fun x e hx he => step_windowsCounted hx he)
    (fun x e hx he => ⟨?_, (step_windowsCounted hx he).2⟩) ⟨InstanceState.new_tidy, ?_⟩ hu
  · intro w hw
    rcases hw with hw | hw
    · cases hw
    · cases hw
  · rintro p rfl
    exact verdictSpared_of_usable he

/-- a scale-up whose counters go missing while it waits for its verdict, and are back in time -/
theorem counters_respected_gap :
    let tick (t : ℕ) (util : ℚ) (io : Option ℕ) : Poll :=
      { status := { threadCount := 2, perThreadUtil := util, perf := io.map fun n => { readIoCount := n } }
        context := ⟨fromSecs t, 2, 8, 0, {}, 0⟩
        appliedAt := some (fromSecs t) }
    Core.Along standard.traced standard.CountersRespected (.new, {})
      [.poll (tick 0 (9 / 10) (some 0)), .poll (tick 10 1 (some 1000)), .poll (tick 20 1 none), .poll (tick 30 1 none),
        .poll (tick 40 1 (some 4000)), .poll (tick 50 (9 / 10) (some 5000))] :=
  counters_respected standard _ (by decide +kernel)

/-- the same scale-up with the counters still missing at its verdict is reverted -/
theorem counters_missing_revert :
    let tick (t : ℕ) (util : ℚ) (io : Option ℕ) : Poll :=
      { status := { threadCount := 2, perThreadUtil := util, perf := io.map fun n => { readIoCount := n } }
        context := ⟨fromSecs t, 2, 8, 0, {}, 0⟩
        appliedAt := some (fromSecs t) }
    ¬ Core.Along standard.traced standard.CountersRespected (.new, {})
      [.poll (tick 0 (9 / 10) (some 0)), .poll (tick 10 1 (some 1000)), .poll (tick 20 1 (some 2100)),
        .poll (tick 30 1 (some 3200)), .poll (tick 40 1 none)] := by
  intro tick h
  have hspared := h.2.2.2.2.1.1 (tick 40 1 none) rfl
  revert hspared
  decide +kernel

end IoThreadController.ThresholdEngine
