/-
What the fields of an engine state say together.

The engine has four entry points. `EngineCall` is a call on one of them, for any VM, or the start of a tick;
`CallState.returned` remembers what each VM's evaluation returned in this tick. `Disciplined` is the controller's promise:
`on_applied` reports the outcome of the action that was returned.

- `Consistent`: what holds of every state. `Sound` adds what its induction needs: a pending action has cleared the other
  direction's failures.
- `evaluate_sound`, `applyOutcome_sound`: the two operations keep it. The second one needs that no hold is left when a
  scale-up is applied, and `evaluate_up_hold` provides that.
- `states_consistent`: every state of every run of disciplined calls is consistent, whatever the outcomes.
- `Controller.stateOf_consistent`: so is every engine state of a running daemon.
-/
import IoThreadController.Fleet.Evaluation
import IoThreadController.Threshold.Windows

namespace IoThreadController

/-- a pending validation is for a scale-up or a scale-down and excludes a hold and low-utilisation evidence, a hold
excludes a baseline window, and only one direction counts failures -/
structure InstanceState.Consistent (s : InstanceState) : Prop where
  pending_action : ∀ pending, s.pendingValidation = some pending →
    (∃ t, pending.action = .up t) ∨ ∃ t, pending.action = .down t
  pending_hold : ∀ pending, s.pendingValidation = some pending → s.postRevertUpHold = none
  pending_lowUtil : ∀ pending, s.pendingValidation = some pending → s.lowUtilPolls = 0
  hold_window : ∀ hold, s.postRevertUpHold = some hold → s.baselineWindowStart = none
  failures : ¬ (0 < s.consecutiveFailedUps ∧ 0 < s.consecutiveFailedDowns)

/-- the inductive invariant: the verdict on a pending action can only raise the failures of its own direction -/
structure InstanceState.Sound (s : InstanceState) : Prop extends s.Consistent where
  pending_up : ∀ pending t, s.pendingValidation = some pending → pending.action = .up t → s.consecutiveFailedDowns = 0
  pending_down : ∀ pending t, s.pendingValidation = some pending → pending.action = .down t → s.consecutiveFailedUps = 0

/-- without a pending validation only the hold and the counters matter -/
theorem InstanceState.sound_of_free {s : InstanceState} (hp : s.pendingValidation = none)
    (hw : ∀ hold, s.postRevertUpHold = some hold → s.baselineWindowStart = none)
    (hf : ¬ (0 < s.consecutiveFailedUps ∧ 0 < s.consecutiveFailedDowns)) : s.Sound := by
  have hnone : ∀ pending, s.pendingValidation ≠ some pending := by simp [hp]
  exact ⟨⟨fun p h => absurd h (hnone p), fun p h => absurd h (hnone p), fun p h => absurd h (hnone p), hw, hf⟩,
    fun p _ h => absurd h (hnone p), fun p _ h => absurd h (hnone p)⟩

theorem InstanceState.new_sound : InstanceState.new.Sound := by
  apply InstanceState.sound_of_free <;> simp [InstanceState.new]

namespace ThresholdEngine

variable {T : ThresholdEngine} {s : InstanceState} {status : InstanceStatus} {context : EngineTickContext}

/-! ## Evaluate -/

/-- no baseline window opens while a hold lasts -/
theorem baselinePhase_hold_window (h : ∀ hold, s.postRevertUpHold = some hold → s.baselineWindowStart = none)
    (sample : IoSample) (hold : PostRevertUpHold) (hh : (T.baselinePhase s sample).postRevertUpHold = some hold) :
    (T.baselinePhase s sample).baselineWindowStart = none := by
  rcases baselinePhase_cases T s sample with
    ⟨hnone, _, he⟩ | ⟨w, hnone, _, he⟩ | ⟨k, hsome, he⟩ | ⟨_, _, he⟩ | ⟨hsome, _, he⟩ | ⟨k, w, hsome, _, he⟩ |
      ⟨k, w, _, _, he⟩ <;>
  rw [he] at hh ⊢
  · simp [hnone] at hh
  · simp [hnone] at hh
  · exact h _ hsome
  · simp at hh
  · exact h _ hsome
  · exact h _ hsome
  · simp at hh

theorem freeState_sound (h : s.Sound) (hp : s.pendingValidation = none) : (T.freeState s status context).Sound := by
  obtain ⟨hpend, hups, hdowns, hwindow, -, hhold⟩ := freeState_frame T s status context
  apply InstanceState.sound_of_free
  · exact hpend.trans hp
  · rw [hhold, hwindow]
    exact baselinePhase_hold_window h.hold_window _
  · rw [hups, hdowns]
    exact h.failures

/-- a verdict raises the failures of one direction when those of the other are zero -/
theorem settle_sound (h : s.Sound) {pending : PendingValidation} (hd : Due s pending) (util : ℚ) (sample : IoSample) :
    (T.settleValidation s pending util sample).1.Sound := by
  have hhold := h.pending_hold pending hd.1
  have hwindow : ∀ hold, s.postRevertUpHold = some hold → some sample = none := by simp [hhold]
  cases hv : T.validationRevertTarget (iopsRate pending.validationStart sample) util pending with
  | none =>
    rw [settle_kept hv]
    cases pending.action with
    | up n => exact InstanceState.sound_of_free rfl hwindow (by simp)
    | down n => exact InstanceState.sound_of_free rfl hwindow (by simp)
    | none => exact InstanceState.sound_of_free rfl hwindow (by simp)
    | revert n => exact InstanceState.sound_of_free rfl hwindow (by simp)
  | some t =>
    rcases (revertTarget_some hv).2 with ⟨n, ha⟩ | ⟨n, ha⟩
    · have hzero := h.pending_up pending n hd.1 ha
      rw [settle_failed_up ha hv]
      exact InstanceState.sound_of_free rfl (fun _ _ => rfl) (by simp [hzero])
    · have hzero := h.pending_down pending n hd.1 ha
      rw [settle_failed_down ha hv]
      exact InstanceState.sound_of_free rfl hwindow (by simp [hzero])

theorem evaluate_sound (h : s.Sound) : (T.evaluateInstance s status context).1.Sound := by
  cases hp : s.pendingValidation with
  | none =>
    rw [evaluate_free hp]
    exact freeState_sound h hp
  | some pending =>
    rcases Nat.eq_zero_or_pos pending.pollsRemaining with hdue | hpos
    · rw [evaluate_due hp hdue]
      exact settle_sound h ⟨hp, hdue⟩ _ _
    · rw [evaluate_waiting hp hpos]
      -- only the countdown of the same action moves on
      refine ⟨⟨?_, ?_, ?_, h.hold_window, h.failures⟩, ?_, ?_⟩
      · intro q hq
        obtain rfl := Option.some.inj hq
        exact h.pending_action pending hp
      · exact fun _ _ => h.pending_hold pending hp
      · exact fun _ _ => h.pending_lowUtil pending hp
      · intro q t hq ha
        obtain rfl := Option.some.inj hq
        exact h.pending_up pending t hp ha
      · intro q t hq ha
        obtain rfl := Option.some.inj hq
        exact h.pending_down pending t hp ha

/-- an evaluation that returns a scale-up leaves no hold -/
theorem evaluate_up_hold {t : ℕ} (h : (T.evaluateInstance s status context).2 = .up t) :
    (T.evaluateInstance s status context).1.postRevertUpHold = none := by
  have hdec : T.decision s ⟨status, context, none⟩ = .up t := h
  have hp : s.pendingValidation = none := (evaluate_up.1 h).1.1
  have hord : (T.decision s ⟨status, context, none⟩).isOrdinary = true := by rw [hdec]; rfl
  have hhold := resetAfterApplied_hold hord
  rw [hdec] at hhold
  rw [evaluate_free hp]
  exact hhold

/-! ## Outcomes -/

/-- a reported success clears the other direction's failures, the evidence, and with a scale-down the hold -/
theorem resetAfterApplied_sound (h : s.Sound) {action : ScaleAction}
    (hup : ∀ t, action = .up t → s.postRevertUpHold = none) : (s.resetAfterApplied action).Sound := by
  cases action with
  | none => exact h
  | revert t => exact h
  | up t =>
    refine ⟨⟨h.pending_action, h.pending_hold, fun _ _ => rfl, h.hold_window, ?_⟩, fun _ _ _ _ => rfl, h.pending_down⟩
    simp [InstanceState.resetAfterApplied]
  | down t =>
    refine ⟨⟨h.pending_action, fun _ _ => rfl, fun _ _ => rfl, ?_, ?_⟩, h.pending_up, fun _ _ _ _ => rfl⟩
    · simp [InstanceState.resetAfterApplied]
    · simp [InstanceState.resetAfterApplied]

/-- what a reported scale-up or scale-down leaves to its validation -/
theorem resetAfterApplied_cleared {action : ScaleAction} (hord : action.isOrdinary = true)
    (hup : ∀ t, action = .up t → s.postRevertUpHold = none) :
    (s.resetAfterApplied action).postRevertUpHold = none ∧ (s.resetAfterApplied action).lowUtilPolls = 0 ∧
      (∀ t, action = .up t → (s.resetAfterApplied action).consecutiveFailedDowns = 0) ∧
      ∀ t, action = .down t → (s.resetAfterApplied action).consecutiveFailedUps = 0 := by
  cases action with
  | none => cases hord
  | revert t => cases hord
  | up t => exact ⟨hup t rfl, rfl, fun _ _ => rfl, nofun⟩
  | down t => exact ⟨rfl, rfl, nofun, fun _ _ => rfl⟩

theorem startValidation_sound (h : s.Sound) {action : ScaleAction} (hord : action.isOrdinary = true)
    (hhold : s.postRevertUpHold = none) (hlow : s.lowUtilPolls = 0)
    (hdowns : ∀ t, action = .up t → s.consecutiveFailedDowns = 0)
    (hups : ∀ t, action = .down t → s.consecutiveFailedUps = 0) (n baseline : ℕ) (start : IoSample) (polls : ℕ) :
    (s.startValidation action n baseline start polls).Sound := by
  refine ⟨⟨?_, fun _ _ => hhold, fun _ _ => hlow, h.hold_window, h.failures⟩, ?_, ?_⟩
  · rintro pending ⟨⟩
    exact ScaleAction.isOrdinary_iff.1 hord
  · rintro pending t ⟨⟩ ha
    exact hdowns t ha
  · rintro pending t ⟨⟩ ha
    exact hups t ha

theorem resetBaselineWindow_sound (h : s.Sound) (hhold : s.postRevertUpHold = none) (start : IoSample) :
    (s.resetBaselineWindow start).Sound := by
  refine ⟨⟨h.pending_action, h.pending_hold, h.pending_lowUtil, ?_, h.failures⟩, h.pending_up, h.pending_down⟩
  simp [InstanceState.resetBaselineWindow, hhold]

theorem applySuccess_sound (h : s.Sound) {action : ScaleAction}
    (hup : ∀ t, action = .up t → s.postRevertUpHold = none) (n io : ℕ) (at' : Instant) :
    (T.applyOutcome s (.success action n io at')).Sound := by
  cases hord : action.isOrdinary with
  | false =>
    rw [applyOutcome_other s hord]
    exact h
  | true =>
    have hreset := resetAfterApplied_sound h hup
    obtain ⟨hhold, hlow, hdowns, hups⟩ := resetAfterApplied_cleared hord hup
    rw [applyOutcome_success s hord]
    split_ifs
    · exact startValidation_sound hreset hord hhold hlow hdowns hups _ _ _ _
    · exact resetBaselineWindow_sound hreset hhold _

/-- a dry run is reported like a success, and the other outcomes change nothing -/
theorem applyOutcome_sound (h : s.Sound) {outcome : AppliedOutcome}
    (hup : ∀ t, outcome.action = .up t → s.postRevertUpHold = none) : (T.applyOutcome s outcome).Sound := by
  cases outcome with
  | success action n io at' => exact applySuccess_sound h hup n io at'
  | dryRun action n io at' => exact applySuccess_sound h hup n io at'
  | blocked action reason => exact h
  | failed action error => exact h

/-- an outcome starts no hold -/
theorem applyOutcome_hold (h : s.postRevertUpHold = none) (outcome : AppliedOutcome) :
    (T.applyOutcome s outcome).postRevertUpHold = none := by
  have hsuccess (action : ScaleAction) (n io : ℕ) (at' : Instant) :
      (T.applyOutcome s (.success action n io at')).postRevertUpHold = none := by
    cases hord : action.isOrdinary with
    | false => rw [applyOutcome_other s hord, h]
    | true =>
      rw [applyOutcome_success s hord]
      split_ifs
      · exact (resetAfterApplied_cleared hord fun _ _ => h).1
      · exact (resetAfterApplied_cleared hord fun _ _ => h).1
  cases outcome with
  | success action n io at' => exact hsuccess action n io at'
  | dryRun action n io at' => exact hsuccess action n io at'
  | blocked action reason => exact h
  | failed action error => exact h

/-! ## Calls -/

/-- a call on the engine, or the start of a tick -/
inductive EngineCall where
  | tick
  | evaluate (i : Instance) (context : EngineTickContext)
  | onApplied (id : VmId) (outcome : AppliedOutcome)
  | onInstanceAdded (i : Instance)
  | onInstanceRemoved (id : VmId)

/-- the engine's states, and what the evaluations of this tick returned -/
structure CallState where
  states : VmId → Option InstanceState := fun _ => none
  returned : VmId → Option ScaleAction := fun _ => none

def call (T : ThresholdEngine) (x : CallState) : EngineCall → CallState
  | .tick => { x with returned := fun _ => none }
  | .evaluate i context =>
    let r := T.evaluate x.states i context
    ⟨r.1, Function.update x.returned i.id (some r.2)⟩
  | .onApplied id outcome => { x with states := T.onApplied x.states id outcome }
  | .onInstanceAdded i => { x with states := onInstanceAdded x.states i }
  | .onInstanceRemoved id => { x with states := onInstanceRemoved x.states id }

/-- `on_applied` reports the outcome of the action that the VM's evaluation returned in this tick -/
def Disciplined (x : CallState) : EngineCall → Prop
  | .onApplied id outcome => x.returned id = some outcome.action
  | .tick | .evaluate .. | .onInstanceAdded .. | .onInstanceRemoved .. => True

instance (x : CallState) : ∀ c : EngineCall, Decidable (Disciplined x c)
  | .onApplied _ _ => by unfold Disciplined; infer_instance
  | .tick | .evaluate .. | .onInstanceAdded .. | .onInstanceRemoved .. => isTrue trivial

/-- every state is sound, and a VM whose evaluation returned a scale-up has no hold -/
structure CallsSound (x : CallState) : Prop where
  sound : ∀ id s, x.states id = some s → s.Sound
  up_hold : ∀ id s t, x.states id = some s → x.returned id = some (.up t) → s.postRevertUpHold = none

/-- a call that sets the state of one VM -/
theorem CallsSound.update {x : CallState} (h : CallsSound x) {id : VmId} {o : Option InstanceState}
    {returned : VmId → Option ScaleAction} (hother : ∀ k, k ≠ id → returned k = x.returned k)
    (hs : ∀ s, o = some s → s.Sound) (hup : ∀ s t, o = some s → returned id = some (.up t) → s.postRevertUpHold = none) :
    CallsSound ⟨Function.update x.states id o, returned⟩ := by
  refine ⟨?_, ?_⟩
  · intro k s hk
    by_cases hid : k = id
    · subst hid
      apply hs
      simpa using hk
    · apply h.sound k
      simpa [hid] using hk
  · intro k s t hk hret
    by_cases hid : k = id
    · subst hid
      exact hup s t (by simpa using hk) hret
    · exact h.up_hold k s t (by simpa [hid] using hk) (by rw [← hother k hid]; exact hret)

theorem call_sound {x : CallState} {c : EngineCall} (h : CallsSound x) (hd : Disciplined x c) :
    CallsSound (T.call x c) := by
  have hstate (id : VmId) : ((x.states id).getD .new).Sound := by
    cases hs : x.states id with
    | none => exact InstanceState.new_sound
    | some s => exact h.sound id s hs
  cases c with
  | tick => exact ⟨h.sound, nofun⟩
  | evaluate i context =>
    apply CallsSound.update h
    · intro k hk
      simp [hk]
    · rintro s ⟨⟩
      exact evaluate_sound (hstate i.id)
    · rintro s t ⟨⟩ hret
      apply evaluate_up_hold
      rw [Function.update_self] at hret
      exact Option.some.inj hret
  | onApplied id outcome =>
    cases hs : x.states id with
    | none =>
      simp only [call, onApplied, hs]
      exact h
    | some s =>
      simp only [call, onApplied, hs]
      apply h.update fun _ _ => rfl
      · rintro s' ⟨⟩
        apply applyOutcome_sound (h.sound id s hs)
        intro t ht
        exact h.up_hold id s t hs (ht ▸ hd)
      · rintro s' t ⟨⟩ hret
        exact applyOutcome_hold (h.up_hold id s t hs hret) outcome
  | onInstanceAdded i =>
    apply h.update fun _ _ => rfl
    · rintro s ⟨⟩
      exact hstate i.id
    · rintro s t ⟨⟩ hret
      cases hs : x.states i.id with
      | none => rfl
      | some s => exact h.up_hold i.id s t hs hret
  | onInstanceRemoved id =>
    apply h.update fun _ _ => rfl
    · simp
    · simp

/-- the state of every VM is consistent -/
def StatesConsistent (states : VmId → Option InstanceState) : Prop := ∀ id s, states id = some s → s.Consistent

/-- in every run of disciplined calls on any VMs, with any outcomes, every engine state is consistent -/
theorem states_consistent (T : ThresholdEngine) (cs : List EngineCall) (hd : Core.Along T.call Disciplined {} cs) :
    StatesConsistent (Core.run T.call {} cs).states := by
  have hinit : CallsSound {} := ⟨nofun, nofun⟩
  have hrun : CallsSound (Core.run T.call {} cs) := Core.run_inv CallsSound (fun _ _ h hc => call_sound h hc) hinit hd
  exact fun id s hs => (hrun.sound id s hs).toConsistent

/-- a scale-up that is applied and reverted, and a scale-down in a dry run while its hold lasts -/
theorem states_consistent_reverted :
    let vm (util : ℚ) (io : ℕ) : Instance :=
      ⟨"vm", 0, { threadCount := 2, perThreadUtil := util, perf := some { readIoCount := io } }⟩
    let context (t : ℕ) : EngineTickContext := ⟨fromSecs t, 1, 8, 0, {}, 0⟩
    StatesConsistent (Core.run standard.call {}
      [.onInstanceAdded (vm 0 0), .tick, .evaluate (vm (9 / 10) 0) (context 0), .tick, .evaluate (vm 1 1000) (context 10),
        .onApplied "vm" (.success (.up 3) 2 1000 (fromSecs 10)), .tick, .evaluate (vm 1 2000) (context 20),
        .tick, .evaluate (vm 1 3000) (context 30), .tick, .evaluate (vm 1 4000) (context 40),
        .onApplied "vm" (.failed (.revert 2) "transport"), .tick, .evaluate (vm 0 5000) (context 50), .tick,
        .evaluate (vm 0 6000) (context 60), .tick, .evaluate (vm 0 7000) (context 70),
        .onApplied "vm" (.dryRun (.down 1) 2 7000 (fromSecs 70))]).states :=
  states_consistent standard _ (by decide +kernel)

/-! ## The daemon -/

theorem driveStep_sound (h : s.Sound) (p : Poll) : (T.driveStep s p).Sound := by
  unfold driveStep
  cases p.appliedAt with
  | none => exact evaluate_sound h
  | some at' => exact applySuccess_sound (evaluate_sound h) (fun _ => evaluate_up_hold) _ _ _

theorem run_sound (T : ThresholdEngine) (es : List DriveEvent) : (Core.run T.drive .new es).Sound := by
  refine Core.run_inv InstanceState.Sound (fun s e h _ => ?_) InstanceState.new_sound (Core.along_true _ _ _)
  cases e with
  | poll p => exact driveStep_sound h p
  | forget => exact InstanceState.new_sound

end ThresholdEngine

/-- in every run of the daemon the engine state of every VM is consistent -/
theorem Controller.stateOf_consistent {T : ThresholdEngine} (cfg : Config) (o : VmOwnership) (es : List Event)
    {c : Controller (thresholdEngine T)}
    (ho : Core.Along procStep OrderedProc (some (Controller.new cfg (fun _ => none) o : Controller (thresholdEngine T))) es)
    (hc : Core.run procStep (some (Controller.new cfg (fun _ => none) o)) es = some c) (id : VmId) :
    (c.stateOf id).Consistent := by
  obtain ⟨ds, hds⟩ := run_refines cfg o es ho hc id
  rw [hds]
  exact (ThresholdEngine.run_sound T ds).toConsistent

end IoThreadController
