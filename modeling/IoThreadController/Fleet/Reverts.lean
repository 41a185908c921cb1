/-
Reverts and their application.

The history variable `noteOwed` remembers the reverts that a verdict asked for and that were not applied in their tick,
until the VM leaves the inventory or its pool changes.

- `RevertAccepted`: what a revert has to meet to be applied: ownership, bounds, vCPUs, the backend, and room in the tick.
- `applied_iff_accepted`: a verdict is applied in its tick exactly when it meets that.
- `reverts_kept`: in a run whose failed verdicts all meet it, no revert is lost.
- `refused_revert_lost`: a verdict consumes its evidence, so no later evaluation repeats a refused revert.
- `backend_error_loses_revert`: one failed backend call is enough for that.
-/
import IoThreadController.Fleet.Cap
import IoThreadController.Fleet.Requests

namespace IoThreadController

variable {T : ThresholdEngine}

/-! ## Owed reverts -/

/-- the reverts that were asked for and not applied, each with its target and the size of the failed pool -/
abbrev Owed := VmId → Option (ℕ × ℕ)

/-- what stays owed to a VM whose pool has `n` threads -/
def stillOwed (n : ℕ) (owed : Option (ℕ × ℕ)) : Option (ℕ × ℕ) := owed.filter fun o => o.2 = n

/-- what is owed to a VM after a tick -/
def owedAfterTick (c : Controller (thresholdEngine T)) (env : TickEnv) (owed : Owed) (id : VmId) : Option (ℕ × ℕ) :=
  match c.refreshedRecord env id with
  | none => none
  | some i =>
    match (c.evaluation env id).map Prod.snd with
    | some (.revert t) =>
      if t = i.status.threadCount ∨ (c.tickOutcome env id).any AppliedOutcome.isApplied = true then none
      else some (t, i.status.threadCount)
    | _ => stillOwed i.status.threadCount (owed id)

def noteOwed : Option (Controller (thresholdEngine T)) → Event → Owed → Owed
  | some c, .tick env, owed => owedAfterTick c env owed
  | some c, .sync ds order, owed => fun id =>
    if (c.instances id).isSome = true ∧ ((c.syncInstances ds order).1.instances id).isSome = true then owed id else none
  | some c, ev, owed => fun id =>
    match ev.manualCount c id with
    | none => owed id
    | some n => stillOwed n (owed id)
  | none, _, owed => owed

/-- a VM that is evaluated with a revert owed, its pool still at the failed size, gets the same revert again -/
def Kept : Option (Controller (thresholdEngine T)) × Owed → Event → Prop
  | (some c, owed), .tick env => (c.tick env).2.2 = .ok () → ∀ id ∈ env.order, ∀ o ∈ owed id,
    ∀ i ∈ c.refreshedRecord env id, ∀ r ∈ c.evaluation env id, i.status.threadCount = o.2 → r.2 = .revert o.1
  | _, _ => True

instance : ∀ (x : Option (Controller (thresholdEngine T)) × Owed) (ev : Event), Decidable (Kept x ev)
  | (some _, _), .tick _ => by unfold Kept; infer_instance
  | (some _, _), .sync .. | (some _, _), .setThreadCount .. | (some _, _), .setAllThreadCounts .. | (some _, _), .query
  | (none, _), _ => isTrue trivial

/-! ## Accepted reverts -/

/-- the revert to `t` passes the guards and the backend, and is not left over by the cap -/
def RevertAccepted (c : Controller (thresholdEngine T)) (env : TickEnv) (i : Instance) (t : ℕ) : Prop :=
  i.status.ownershipClassification = some true ∧
    (c.cfg.minThreadCount ≤ t ∧ t ≤ c.cfg.maxThreadCount ∧ t ≤ i.status.vcpuCount) ∧
    (c.cfg.dryRun = true ∨ (env.attempt i.id).backend = .ok ()) ∧ c.HasRoom env i.id

instance (c : Controller (thresholdEngine T)) (env : TickEnv) (i : Instance) (t : ℕ) :
    Decidable (RevertAccepted c env i t) := by unfold RevertAccepted; infer_instance

/-- the due validation of a VM that a tick evaluates, if it fails, asks for a revert that is accepted -/
def RevertsAccepted : Option (Controller (thresholdEngine T)) × Owed → Event → Prop
  | (some c, _), .tick env => (c.tick env).2.2 = .ok () → ∀ id ∈ env.order, ∀ i ∈ c.refreshedRecord env id,
    ∀ pending ∈ (c.stateOf id).pendingValidation, i.skipped = false → pending.pollsRemaining = 0 →
      ∀ t ∈ T.validationRevertTarget
        (iopsRate pending.validationStart (ThresholdEngine.sampleOf i.status (c.contextOf env)))
        i.status.perThreadUtil pending, t ≠ i.status.threadCount → RevertAccepted c env i t
  | _, _ => True

instance : ∀ (x : Option (Controller (thresholdEngine T)) × Owed) (ev : Event), Decidable (RevertsAccepted x ev)
  | (some _, _), .tick _ => by unfold RevertsAccepted; infer_instance
  | (some _, _), .sync .. | (some _, _), .setThreadCount .. | (some _, _), .setAllThreadCounts .. | (some _, _), .query
  | (none, _), _ => isTrue trivial

/-- a revert meets neither the cooldown nor the host ceiling -/
theorem guard_revert (c : Controller (thresholdEngine T)) (status : InstanceStatus) (t : ℕ) (now : Instant) :
    c.guard status (.revert t) t now = none ↔
      status.manualScalingSticky = false ∧ status.ownershipClassification = some true ∧ c.cfg.minThreadCount ≤ t ∧
        t ≤ c.cfg.maxThreadCount ∧ t ≤ status.vcpuCount := by
  rw [Controller.guard_eq_none]
  simp [ScaleAction.isOrdinary, ScaleAction.isUp]

section Tick

variable {c : Controller (thresholdEngine T)} {env : TickEnv} {id : VmId} {i : Instance}

theorem skipped_sticky (h : i.skipped = false) : i.status.manualScalingSticky = false := by
  simp [Instance.skipped] at h
  exact h.1

/-- a verdict is applied in its tick exactly when its revert is accepted -/
theorem applied_iff_accepted (hk : c.Keyed) (ho : Enumerates env.order c.instances) (hok : (c.tick env).2.2 = .ok ())
    {r : InstanceState × ScaleAction} (hr : c.evaluation env id = some r) (hrec : c.refreshedRecord env id = some i)
    {t : ℕ} (hrev : r.2 = .revert t) (hne : t ≠ i.status.threadCount) :
    (c.tickOutcome env id).any AppliedOutcome.isApplied = true ↔ RevertAccepted c env i t := by
  have hid : i.id = id := Controller.refreshedRecord_id hk hrec
  have hout := Controller.tickOutcome_eq hk ho hok hr hrec (t := t) (by rw [hrev]; rfl) hne
  obtain ⟨j, hj, hs, -⟩ := Controller.evaluation_some hr
  obtain rfl : j = i := Option.some.inj (hj.symm.trans hrec)
  have happlied : (c.wouldReport env j r.2 t).isApplied = true ↔
      j.status.ownershipClassification = some true ∧
        (c.cfg.minThreadCount ≤ t ∧ t ≤ c.cfg.maxThreadCount ∧ t ≤ j.status.vcpuCount) ∧
        (c.cfg.dryRun = true ∨ (env.attempt j.id).backend = .ok ()) := by
    rw [Controller.wouldReport_isApplied, hrev, guard_revert, Controller.decidedTick_cfg]
    simp [skipped_sticky hs, and_assoc]
  rw [hout]
  unfold RevertAccepted
  rw [hid]
  by_cases hroom : c.HasRoom env id
  · rw [if_pos hroom, Option.any_some, happlied, hid]
    simp [hroom]
  · rw [if_neg hroom]
    simp [hroom]

end Tick

/-! ## The invariant -/

/-- nothing is owed while the process runs -/
def Clear (x : Option (Controller (thresholdEngine T)) × Owed) : Prop :=
  ∀ c, x.1 = some c → c.Keyed ∧ ∀ id, x.2 id = none

theorem tick_clear {c : Controller (thresholdEngine T)} {owed : Owed} (hk : c.Keyed) (hclear : ∀ id, owed id = none)
    {env : TickEnv} (ho : Enumerates env.order c.instances) (hok : (c.tick env).2.2 = .ok ())
    (hacc : RevertsAccepted (some c, owed) (.tick env)) (id : VmId) : owedAfterTick c env owed id = none := by
  unfold owedAfterTick
  rcases hrec : c.refreshedRecord env id with _ | i
  · rfl
  dsimp only
  rcases hr : c.evaluation env id with _ | r
  · simp [stillOwed, hclear id]
  rcases hact : r.2 with _ | t | t | t
  · simp [hact, stillOwed, hclear id]
  · simp [hact, stillOwed, hclear id]
  · simp [hact, stillOwed, hclear id]
  -- a verdict: its revert goes nowhere, or it is accepted
  by_cases hne : t = i.status.threadCount
  · simp [hact, hne]
  have haccepted : RevertAccepted c env i t := by
    obtain ⟨j, hj, hs, hre⟩ := Controller.evaluation_some hr
    obtain rfl : j = i := Option.some.inj (hj.symm.trans hrec)
    have hmem := Controller.refreshedRecord_mem ho hrec
    rw [hre] at hact
    obtain ⟨pending, ⟨hp, hdue⟩, htarget⟩ := ThresholdEngine.evaluate_revert.1 hact
    exact hacc hok id hmem j hrec pending hp hs hdue t htarget hne
  have happlied := (applied_iff_accepted hk ho hok hr hrec hact hne).2 haccepted
  simp [hact, happlied]

theorem step_clear {x : Option (Controller (thresholdEngine T)) × Owed} {ev : Event} (h : Clear x)
    (ho : Controller.OrderedProc x.1 ev) (hacc : RevertsAccepted x ev) :
    Clear (Core.withHistory procStep noteOwed x ev) := by
  obtain ⟨process, owed⟩ := x
  rcases process with _ | c
  · intro c hc
    cases hc
  have hk : c.Keyed := (h c rfl).1
  have hclear : ∀ id, owed id = none := (h c rfl).2
  intro c' hc'
  obtain ⟨hok, rfl⟩ := procStep_eq_some.1 hc'
  refine ⟨Controller.step_keyed hk ev, ?_⟩
  intro id
  cases ev with
  | tick env => exact tick_clear hk hclear (ho c rfl) hok hacc id
  | sync ds order => simp [Core.withHistory, noteOwed, hclear id]
  | setThreadCount vm threads sticky backend =>
    simp only [Core.withHistory, noteOwed, hclear id]
    split
    · rfl
    · rfl
  | setAllThreadCounts threads sticky backend order =>
    simp only [Core.withHistory, noteOwed, hclear id]
    split
    · rfl
    · rfl
  | query => exact hclear id

theorem kept_of_clear {x : Option (Controller (thresholdEngine T)) × Owed} (h : Clear x) (ev : Event) : Kept x ev := by
  obtain ⟨process, owed⟩ := x
  rcases process with _ | c
  · trivial
  cases ev with
  | tick env =>
    intro _ id _ o ho
    have hclear : owed id = none := (h c rfl).2 id
    rw [hclear] at ho
    simp at ho
  | sync ds order => trivial
  | setThreadCount vm threads sticky backend => trivial
  | setAllThreadCounts threads sticky backend order => trivial
  | query => trivial

/-- in every run whose failed verdicts ask for reverts that are accepted in their tick, no revert is lost -/
theorem reverts_kept (T : ThresholdEngine) (cfg : Config) (o : VmOwnership) (es : List Event)
    (ho : Core.Along procStep Controller.OrderedProc
      (some (Controller.new cfg (fun _ => none) o : Controller (thresholdEngine T))) es)
    (hacc : Core.Along (Core.withHistory procStep noteOwed) RevertsAccepted
      (some (Controller.new cfg (fun _ => none) o : Controller (thresholdEngine T)), fun _ => none) es) :
    Core.Along (Core.withHistory procStep noteOwed) Kept
      (some (Controller.new cfg (fun _ => none) o : Controller (thresholdEngine T)), fun _ => none) es := by
  refine Core.along_of_inv Clear (fun x ev hx hc => step_clear hx hc.1 hc.2) (fun x ev hx _ => kept_of_clear hx ev) ?_
    ((Core.along_withHistory noteOwed ho).and hacc)
  intro c hc
  obtain rfl := Option.some.inj hc
  exact ⟨Controller.new_keyed cfg _ o, fun _ => rfl⟩

/-- a VM without load is discovered, saturates, is scaled up to three threads in vain, and is still saturated when the
verdict has asked for a revert, which the backend answers with `backend` and after which the pool has `n` threads -/
def uselessScaleUp (backend : Except BackendClientError Unit) (n : ℕ) : List Event :=
  let snapshot (threads : ℕ) (util : ℚ) (io : ℕ) : Except BackendClientError ThreadPoolSnapshot :=
    .ok { threadCount := threads, vcpuCount := 8, perf := some { readIoCount := io }, perThreadUtil := some util }
  [.tick (.single "vm" 0 0 (snapshot 2 (1 / 2) 0)),
    .tick (.single "vm" (fromSecs 10) (fromSecs 10) (snapshot 2 1 1000)),
    .tick (.single "vm" (fromSecs 20) (fromSecs 20) (snapshot 3 1 2000)),
    .tick (.single "vm" (fromSecs 30) (fromSecs 30) (snapshot 3 1 3000)),
    .tick (.single "vm" (fromSecs 40) (fromSecs 40) (snapshot 3 1 4000) backend),
    .tick (.single "vm" (fromSecs 50) (fromSecs 50) (snapshot n 1 5000))]

theorem uselessScaleUp_keepsFleet (backend : Except BackendClientError Unit) (n : ℕ) :
    ∀ ev ∈ uselessScaleUp backend n, ev.KeepsFleet ["vm"] := by
  simp [uselessScaleUp, Event.KeepsFleet, TickEnv.single, Except.isOk, Except.toBool]

/-- the useless scale-up is reverted -/
theorem reverts_kept_applied :
    Core.Along (Core.withHistory procStep noteOwed) Kept
      (some (Controller.new {} (fun _ => none) {} : Controller (thresholdEngine .standard)), fun _ => none)
      (.sync [⟨"vm", 1⟩] ["vm"] :: uselessScaleUp (.ok ()) 2) :=
  reverts_kept .standard {} {} _
    (Controller.ordered_of_discovery {} _ {} (by decide) (uselessScaleUp_keepsFleet _ _)) (by decide +kernel)

/-! ## Lost reverts -/

/-- the event does not evaluate the VM -/
def Unevaluated (id : VmId) (process : Option (Controller (thresholdEngine T))) (ev : Event) : Prop :=
  ∀ c, process = some c → ∀ env, ev = .tick env → c.evaluation env id = none

/-- without an evaluation, no validation starts -/
theorem step_unevaluated {c : Controller (thresholdEngine T)} (hs : c.Sourced) (hk : c.Keyed) {ev : Event}
    (ho : ev.Ordered c) (hok : (c.step ev).2.2 = .ok ()) {id : VmId} (hun : Unevaluated id (some c) ev)
    (h : (c.stateOf id).pendingValidation = none) : ((c.step ev).1.stateOf id).pendingValidation = none := by
  rcases Controller.step_spares hs hk ho hok (hun c rfl) with hst | hst
  · rw [hst]
    exact h
  · rw [hst]
    rfl

/-- after a tick whose verdict on a VM is a revert, applied or not, the next evaluation of that VM is not a revert -/
theorem refused_revert_lost {c : Controller (thresholdEngine T)} (hs : c.Sourced) (hk : c.Keyed) {env : TickEnv}
    (ho : Enumerates env.order c.instances) (hok : (c.tick env).2.2 = .ok ()) {id : VmId}
    {r : InstanceState × ScaleAction} (hr : c.evaluation env id = some r) {t : ℕ} (hrev : r.2 = .revert t)
    {es : List Event} (hes : Core.Along procStep Controller.OrderedProc (some (c.tick env).1) es)
    (hun : Core.Along procStep (Unevaluated id) (some (c.tick env).1) es) {c' : Controller (thresholdEngine T)}
    (hc' : Core.run procStep (some (c.tick env).1) es = some c') {env' : TickEnv} {r' : InstanceState × ScaleAction}
    (hr' : c'.evaluation env' id = some r') (t' : ℕ) : r'.2 ≠ .revert t' := by
  have hpending : ((c.tick env).1.stateOf id).pendingValidation = none := by
    obtain ⟨i, hrec, -, hre⟩ := Controller.evaluation_some hr
    obtain ⟨appliedAt, hst, -⟩ := Controller.tick_drives hk ho hok hr hrec
    rw [Controller.stateOf_some hst]
    refine ThresholdEngine.driveStep_revert (t := t) ?_
    rw [hre] at hrev
    exact hrev
  have hinv := Core.run_inv
    (fun p : Option (Controller (thresholdEngine T)) => ∀ c, p = some c →
      c.Sourced ∧ c.Keyed ∧ (c.stateOf id).pendingValidation = none) ?_ ?_ (hes.and hun)
  · intro hrev'
    obtain ⟨i, -, -, hre⟩ := Controller.evaluation_some hr'
    rw [hre] at hrev'
    obtain ⟨pending, hdue, -⟩ := ThresholdEngine.evaluate_revert.1 hrev'
    have hp := hdue.1
    rw [(hinv c' hc').2.2] at hp
    simp at hp
  · intro p ev hp hcond c1 hc1
    rcases p with _ | c0
    · cases hc1
    · obtain ⟨hok0, rfl⟩ := procStep_eq_some.1 hc1
      obtain ⟨hs0, hk0, hp0⟩ := hp c0 rfl
      exact ⟨Controller.step_sourced hs0 hk0 (hcond.1 c0 rfl) hok0, Controller.step_keyed hk0 ev,
        step_unevaluated hs0 hk0 (hcond.1 c0 rfl) hok0 hcond.2 hp0⟩
  · intro c0 hc0
    obtain rfl := Option.some.inj hc0
    exact ⟨Controller.tick_sourced hs hk ho hok, Controller.step_keyed hk (.tick env), hpending⟩

/-- the backend fails once: the verdict of the fifth tick asks for a revert to two threads, and the sixth tick, which
evaluates the VM with the pool still at three, does not -/
theorem backend_error_loses_revert :
    let start : Option (Controller (thresholdEngine .standard)) × Owed :=
      (some (Controller.new {} (fun _ => none) {}), fun _ => none)
    let es := Event.sync [⟨"vm", 1⟩] ["vm"] :: uselessScaleUp (.error "timeout") 3
    Core.Along procStep Controller.OrderedProc start.1 es ∧
      (Core.run (Core.withHistory procStep noteOwed) start es).2 "vm" = some (2, 3) ∧
      ¬ Core.Along (Core.withHistory procStep noteOwed) Kept start es := by
  refine ⟨Controller.ordered_of_discovery {} _ {} (by decide) (uselessScaleUp_keepsFleet _ _), ?_, ?_⟩
  · decide +kernel
  · decide +kernel

end IoThreadController
