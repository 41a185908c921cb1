/-
One tick, phase by phase.

- `refreshedRecord`: the record that the refresh of a tick leaves; `prepareTick_instances` says the preparation changes
  the inventory in no other way.
- `prepareTick_effects`: the preparation performs reads and then file operations, and nothing else.
- `tickAttempts`, `tick_effects`: the effects of a tick are those of its preparation followed by those of its attempts.
- `attempts_record`: no VM is attempted twice in a tick, so every attempt meets the record that the refresh left.
-/
import IoThreadController.Fleet.Attempts
import IoThreadController.Model.Daemon

namespace IoThreadController

/-! ## Kinds of effect -/

/-- reads and closes: the effects of a refresh -/
def Effect.isRead : Effect → Bool
  | .getSnapshot _ | .close _ => true
  | .setThreadCount .. | .fs _ | .report .. => false

/-- the report carried by an effect -/
def reported : Effect → Option (VmId × AppliedOutcome)
  | .report vm outcome => some (vm, outcome)
  | .getSnapshot _ | .setThreadCount .. | .close _ | .fs _ => none

theorem Effect.isRead_spec {e : Effect} (h : e.isRead = true) : automaticResize e = none ∧ reported e = none := by
  cases e with
  | getSnapshot client => exact ⟨rfl, rfl⟩
  | close client => exact ⟨rfl, rfl⟩
  | setThreadCount client vm count origin => cases h
  | fs op => cases h
  | report vm outcome => cases h

/-- the environment of a tick over one VM whose refresh and guards see the same clock -/
def TickEnv.single (vm : VmId) (now appliedAt : Instant) (snapshot : Except BackendClientError ThreadPoolSnapshot)
    (backend : Except BackendClientError Unit := .ok ()) : TickEnv where
  now
  order := [vm]
  refresh _ := { snapshot, now }
  attempt _ := { checkedAt := appliedAt, appliedAt, backend }

/-- an engine without state that decides for every VM by one rule -/
def ScalingEngine.stateless (rule : Instance → ScaleAction) : ScalingEngine where
  State := Unit
  evaluateFleet st fleet _ := (st, fleet.map fun i => ⟨i.id, rule i⟩)
  onApplied st _ _ := st
  onInstanceAdded st _ := st
  onInstanceRemoved st _ := st

namespace Controller

variable {E : ScalingEngine}

/-! ## Preparation -/

@[simp] theorem beginTick_cfg (c : Controller E) (env : TickEnv) : (c.beginTick env).cfg = c.cfg := by
  unfold beginTick
  dsimp only
  cases env.hostCpu <;> dsimp only <;> split <;> rfl

@[simp] theorem beginTick_engine (c : Controller E) (env : TickEnv) : (c.beginTick env).engine = c.engine := by
  unfold beginTick
  dsimp only
  cases env.hostCpu <;> dsimp only <;> split <;> rfl

@[simp] theorem beginTick_vmOwnership (c : Controller E) (env : TickEnv) :
    (c.beginTick env).vmOwnership = c.vmOwnership := by
  unfold beginTick
  dsimp only
  cases env.hostCpu <;> dsimp only <;> split <;> rfl

@[simp] theorem beginTick_instances (c : Controller E) (env : TickEnv) :
    (c.beginTick env).instances = c.instances := by
  unfold beginTick
  dsimp only
  cases env.hostCpu <;> dsimp only <;> split <;> rfl

/-- the record that the refresh of a tick leaves for a VM, `none` when the refresh failed -/
def refreshedRecord (c : Controller E) (env : TickEnv) (id : VmId) : Option Instance :=
  match c.instances id with
  | none => none
  | some i => if (c.refreshOne env i).2 then some (c.refreshOne env i).1 else none

theorem refreshFleet_instances (c : Controller E) (env : TickEnv) :
    (c.refreshFleet env).1.instances = c.refreshedRecord env := rfl

@[simp] theorem beginTick_refreshOne (c : Controller E) (env : TickEnv) :
    (c.beginTick env).refreshOne env = c.refreshOne env := by
  funext i
  simp [refreshOne]

theorem refreshedRecord_beginTick (c : Controller E) (env : TickEnv) :
    (c.beginTick env).refreshedRecord env = c.refreshedRecord env := by
  funext id
  simp only [refreshedRecord, beginTick_refreshOne, beginTick_instances]

/-- a record after the refresh comes from a successful refresh of the record before it -/
theorem refreshedRecord_some {c : Controller E} {env : TickEnv} {id : VmId} {i' : Instance}
    (h : c.refreshedRecord env id = some i') :
    ∃ i s, c.instances id = some i ∧ (env.refresh i.id).snapshot = .ok s ∧
      i' = { i with status := applyThreadPoolSnapshot c.cfg.refreshCgroupOnEachRead (env.refresh i.id) i.status s } := by
  unfold refreshedRecord at h
  cases hi : c.instances id with
  | none => rw [hi] at h; simp at h
  | some i =>
    rw [hi] at h
    cases hs : (env.refresh i.id).snapshot with
    | error e =>
      have hr : c.refreshOne env i = _ := i.refreshState_error _ hs
      simp [hr] at h
    | ok s =>
      have hr : c.refreshOne env i = _ := i.refreshState_ok _ hs
      simp only [hr, if_true, Option.some.injEq] at h
      exact ⟨i, s, rfl, hs, h.symm⟩

theorem persist_frame (c : Controller E) (fault : Option SaveFault) (fleet : List Instance) :
    (c.persistNewClassifications fault fleet).1.cfg = c.cfg ∧
    (c.persistNewClassifications fault fleet).1.engine = c.engine ∧
    (c.persistNewClassifications fault fleet).1.instances = c.instances ∧
    (c.persistNewClassifications fault fleet).1.hostCpuUtil = c.hostCpuUtil := by
  unfold persistNewClassifications
  cases recordNew c.vmOwnership false fleet with
  | error e => exact ⟨rfl, rfl, rfl, rfl⟩
  | ok r =>
    dsimp only
    split_ifs with hc
    · cases VmStateStore.save fault r.1 with
      | mk ops result => cases result <;> exact ⟨rfl, rfl, rfl, rfl⟩
    · exact ⟨rfl, rfl, rfl, rfl⟩

/-- the file operations of the registry write in a persist -/
theorem persist_effects (c : Controller E) (fault : Option SaveFault) (fleet : List Instance) :
    ∃ ops : List FsOp, (c.persistNewClassifications fault fleet).2.1 = ops.map .fs := by
  unfold persistNewClassifications
  cases recordNew c.vmOwnership false fleet with
  | error e => exact ⟨[], rfl⟩
  | ok r =>
    dsimp only
    split_ifs with hc
    · cases VmStateStore.save fault r.1 with
      | mk ops result => cases result <;> exact ⟨ops, rfl⟩
    · exact ⟨[], rfl⟩

@[simp] theorem prepareTick_cfg (c : Controller E) (env : TickEnv) : (c.prepareTick env).1.cfg = c.cfg := by
  unfold prepareTick
  simp only [(persist_frame _ _ _).1, refreshFleet, beginTick_cfg]

@[simp] theorem prepareTick_instances (c : Controller E) (env : TickEnv) :
    (c.prepareTick env).1.instances = c.refreshedRecord env := by
  unfold prepareTick
  simp only [(persist_frame _ _ _).2.2.1, refreshFleet_instances, refreshedRecord_beginTick]

/-- the engine of a prepared tick has forgotten the VMs whose refresh failed -/
theorem prepareTick_engine (c : Controller E) (env : TickEnv) :
    (c.prepareTick env).1.engine =
      ((c.fleet env.order).filter fun i => ! (c.refreshOne env i).2).foldl (fun st i => E.onInstanceRemoved st i.id)
        c.engine := by
  unfold prepareTick
  simp only [(persist_frame _ _ _).2.1]
  simp [refreshFleet, fleet]

/-- the reads of a tick's refresh -/
def refreshEffects (c : Controller E) (env : TickEnv) : List Effect := ((c.beginTick env).refreshFleet env).2

theorem refreshEffects_isRead (c : Controller E) (env : TickEnv) : ∀ e ∈ c.refreshEffects env, e.isRead = true := by
  intro e he
  simp only [refreshEffects, refreshFleet, List.mem_flatMap] at he
  obtain ⟨i, -, he⟩ := he
  rcases List.mem_cons.1 he with rfl | he
  · rfl
  · split_ifs at he with hf
    · simp at he
    · rw [List.mem_singleton.1 he]; rfl

theorem prepareTick_effects (c : Controller E) (env : TickEnv) :
    ∃ ops : List FsOp, (c.prepareTick env).2.1 = c.refreshEffects env ++ ops.map .fs := by
  obtain ⟨ops, hops⟩ := persist_effects ((c.beginTick env).refreshFleet env).1 env.saveFault
    (((c.beginTick env).refreshFleet env).1.fleet env.order)
  refine ⟨ops, ?_⟩
  unfold prepareTick refreshEffects
  simp only [hops]

/-- the preparation neither resizes a pool nor reports an outcome -/
theorem prepareTick_quiet (c : Controller E) (env : TickEnv) :
    ∀ e ∈ (c.prepareTick env).2.1, automaticResize e = none ∧ reported e = none := by
  intro e he
  obtain ⟨ops, hops⟩ := prepareTick_effects c env
  rw [hops] at he
  rcases List.mem_append.1 he with he | he
  · exact Effect.isRead_spec (refreshEffects_isRead c env e he)
  · obtain ⟨op, -, rfl⟩ := List.mem_map.1 he
    exact ⟨rfl, rfl⟩

/-! ## Attempts of a tick -/

theorem tryEntry_other (c : Controller E) (attempt : VmId → AttemptEnv) (entry : PlanEntry) {x : VmId}
    (hx : x ≠ entry.instanceId) : (c.tryEntry attempt entry).1.instances x = c.instances x := by
  unfold tryEntry
  cases ht : entry.action.target with
  | none => rw [applyEngineDecision_hold c _ _ ht]
  | some t =>
    cases hi : c.instances entry.instanceId with
    | none => rw [applyEngineDecision_untracked c _ _ hi]
    | some i => rw [applyEngineDecision_eq c _ hi ht]; exact afterAttempt_other c _ i t _ hx

/-- when no VM has two entries, every attempt meets the record that its VM had before the plan -/
theorem attempts_record {c : Controller E} {attempt : VmId → AttemptEnv} {adjusted : ℕ} {plan : List PlanEntry}
    (hn : (plan.map PlanEntry.instanceId).Nodup) {x : Controller E × PlanEntry}
    (hx : x ∈ c.attempts attempt adjusted plan) :
    x.1.instances x.2.instanceId = c.instances x.2.instanceId := by
  induction plan generalizing c adjusted with
  | nil => cases hx
  | cons entry plan ih =>
    rw [List.map_cons, List.nodup_cons] at hn
    rw [attempts] at hx
    by_cases h : c.capReached adjusted
    · rw [if_pos h] at hx; exact ih hn.2 hx
    · rw [if_neg h] at hx
      rcases List.mem_cons.1 hx with rfl | hx
      · rfl
      · have hne : x.2.instanceId ≠ entry.instanceId := by
          intro heq
          exact hn.1 (heq ▸ List.mem_map_of_mem (attempts_inv hx).1)
        rw [ih hn.2 hx, tryEntry_other c attempt entry hne]

/-- the controller of a tick when its engine has decided, and the sorted plan -/
def decidedTick (c : Controller E) (env : TickEnv) : Controller E × List PlanEntry :=
  let d := (c.prepareTick env).1.decideFleet env
  (d.1, d.1.planOf d.2)

/-- the attempts of a tick; a tick whose preparation failed makes none -/
def tickAttempts (c : Controller E) (env : TickEnv) : List (Controller E × PlanEntry) :=
  match (c.prepareTick env).2.2 with
  | .error _ => []
  | .ok () => (c.decidedTick env).1.attempts env.attempt 0 (c.decidedTick env).2

@[simp] theorem decidedTick_cfg (c : Controller E) (env : TickEnv) : (c.decidedTick env).1.cfg = c.cfg :=
  prepareTick_cfg c env

@[simp] theorem decidedTick_instances (c : Controller E) (env : TickEnv) :
    (c.decidedTick env).1.instances = c.refreshedRecord env := prepareTick_instances c env

theorem tick_error {c : Controller E} {env : TickEnv} {e : ControllerError} (h : (c.prepareTick env).2.2 = .error e) :
    c.tick env = ((c.prepareTick env).1, (c.prepareTick env).2.1, .error e) := by
  unfold tick
  rcases hp : c.prepareTick env with ⟨c', effects, result⟩
  rw [hp] at h
  dsimp only at h ⊢
  rw [h]

theorem tick_ok {c : Controller E} {env : TickEnv} (h : (c.prepareTick env).2.2 = .ok ()) :
    c.tick env =
      let r := (c.decidedTick env).1.applyPlan env.attempt 0 (c.decidedTick env).2
      (r.1, (c.prepareTick env).2.1 ++ r.2, .ok ()) := by
  unfold tick decidedTick
  rcases hp : c.prepareTick env with ⟨c', effects, result⟩
  rw [hp] at h
  dsimp only at h ⊢
  rw [h]

theorem tickAttempts_ok {c : Controller E} {env : TickEnv} (h : (c.prepareTick env).2.2 = .ok ()) :
    c.tickAttempts env = (c.decidedTick env).1.attempts env.attempt 0 (c.decidedTick env).2 := by
  unfold tickAttempts
  rw [h]

theorem tickAttempts_error {c : Controller E} {env : TickEnv} {e : ControllerError}
    (h : (c.prepareTick env).2.2 = .error e) : c.tickAttempts env = [] := by
  unfold tickAttempts
  rw [h]

/-- an attempt of a tick is one of the attempts on its plan -/
theorem mem_tickAttempts {c : Controller E} {env : TickEnv} {x : Controller E × PlanEntry}
    (hx : x ∈ c.tickAttempts env) : x ∈ (c.decidedTick env).1.attempts env.attempt 0 (c.decidedTick env).2 := by
  cases h : (c.prepareTick env).2.2 with
  | error e =>
    rw [tickAttempts_error h] at hx
    simp at hx
  | ok u =>
    rw [tickAttempts_ok h] at hx
    exact hx

theorem tick_effects (c : Controller E) (env : TickEnv) :
    (c.tick env).2.1 =
      (c.prepareTick env).2.1 ++ (c.tickAttempts env).flatMap fun x => (x.1.tryEntry env.attempt x.2).2.1 := by
  cases h : (c.prepareTick env).2.2 with
  | error e => rw [tick_error h, tickAttempts_error h]; simp
  | ok u => rw [tick_ok h, tickAttempts_ok h]; simp only [applyPlan_effects]

/-- every attempt of a tick is a decision of the engine that changes the count of a refreshed VM, and meets that VM's
refreshed record under the tick's configuration -/
theorem tickAttempts_spec {c : Controller E} {env : TickEnv} {x : Controller E × PlanEntry}
    (hx : x ∈ c.tickAttempts env) :
    x.1.cfg = c.cfg ∧ ⟨x.2.instanceId, x.2.action⟩ ∈ ((c.prepareTick env).1.decideFleet env).2 ∧ ∃ i t,
      c.refreshedRecord env x.2.instanceId = some i ∧ x.1.instances x.2.instanceId = some i ∧
        x.2.action.target = some t ∧ t ≠ i.status.threadCount := by
  obtain ⟨hplan, hapart⟩ := attempts_inv (mem_tickAttempts hx)
  obtain ⟨-, hdec, i, t, hi, ht, hne, -⟩ := mem_buildPlan (mem_planOf.1 hplan)
  have hrec := attempts_record (planOf_nodup _ _) (mem_tickAttempts hx)
  have hi' : c.refreshedRecord env x.2.instanceId = some i := by rw [← decidedTick_instances]; exact hi
  refine ⟨hapart.cfg.trans (decidedTick_cfg c env), hdec, i, t, hi', ?_, ht, hne⟩
  rw [hrec, decidedTick_instances, hi']

/-- after a tick a VM is gone, or its record is the refreshed one up to thread count and cooldown -/
theorem tick_instances (c : Controller E) (env : TickEnv) (id : VmId) :
    (c.refreshedRecord env id = none ∧ (c.tick env).1.instances id = none) ∨
      ∃ i n u, c.refreshedRecord env id = some i ∧ (c.tick env).1.instances id =
        some { i with status := { i.status with threadCount := n, cooldownUntil := u } } := by
  have hself : ∀ i : Instance, i = { i with status :=
      { i.status with threadCount := i.status.threadCount, cooldownUntil := i.status.cooldownUntil } } := fun i => rfl
  cases h : (c.prepareTick env).2.2 with
  | error e =>
    rw [tick_error h, prepareTick_instances]
    cases hr : c.refreshedRecord env id with
    | none => exact Or.inl ⟨rfl, rfl⟩
    | some i => exact Or.inr ⟨i, _, _, rfl, congrArg some (hself i)⟩
  | ok u =>
    rw [tick_ok h]
    have ha := (applyPlan_apart (c.decidedTick env).1 env.attempt 0 (c.decidedTick env).2).instances id
    rw [decidedTick_instances] at ha
    rcases ha with ⟨h1, h2⟩ | ⟨i, i', h1, h2, n, v, rfl⟩
    · exact Or.inl ⟨h1, h2⟩
    · exact Or.inr ⟨i, n, v, h1, h2⟩

theorem tick_vmOwnership (c : Controller E) (env : TickEnv) :
    (c.tick env).1.vmOwnership = (c.prepareTick env).1.vmOwnership := by
  cases h : (c.prepareTick env).2.2 with
  | error e => rw [tick_error h]
  | ok u => rw [tick_ok h]; exact (applyPlan_apart _ _ _ _).vmOwnership

theorem tick_result (c : Controller E) (env : TickEnv) : (c.tick env).2.2 = (c.prepareTick env).2.2 := by
  cases h : (c.prepareTick env).2.2 with
  | error e => rw [tick_error h]
  | ok u => rw [tick_ok h]

theorem tick_cfg (c : Controller E) (env : TickEnv) : (c.tick env).1.cfg = c.cfg := by
  cases h : (c.prepareTick env).2.2 with
  | error e => rw [tick_error h]; exact prepareTick_cfg c env
  | ok u => rw [tick_ok h]; exact (applyPlan_apart _ _ _ _).cfg.trans (decidedTick_cfg c env)

end Controller

end IoThreadController
