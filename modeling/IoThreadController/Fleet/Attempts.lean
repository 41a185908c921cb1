/-
What one actuation attempt can do, and the attempts of a tick.

- `applyEngineDecision_eq`: an attempt on a tracked VM is its outcome (`attemptOutcome`), the backend call that the
  outcome stands for, one report, and the status that the outcome leaves.
- `attempts`: the entries of a plan that reach `applyEngineDecision`, each with the controller state it meets.
- `applyPlan_effects`: the effects of a plan are the effects of its attempts, in order.
- `Apart`: an attempt touches one record; `attempts_inv` carries what no attempt changes to every attempt of a plan.
-/
import IoThreadController.Model.Controller

namespace IoThreadController.Controller

variable {E : ScalingEngine}

/-! ## One attempt -/

/-- the outcome that an attempt on record `i` reports -/
def attemptOutcome (c : Controller E) (env : AttemptEnv) (i : Instance) (action : ScaleAction) (target : ℕ) :
    AppliedOutcome :=
  match c.guard i.status action target env.checkedAt with
  | some reason => .blocked action reason
  | none =>
    if c.cfg.dryRun then .dryRun action i.status.threadCount (ioTotal i.status.perf) env.appliedAt
    else
      match env.backend with
      | .ok () => .success action i.status.threadCount (ioTotal i.status.perf) env.appliedAt
      | .error error => .failed action error

/-- the status that an outcome leaves -/
def attemptStatus (c : Controller E) (env : AttemptEnv) (status : InstanceStatus) (target : ℕ) :
    AppliedOutcome → InstanceStatus
  | .success .. =>
    { status with threadCount := target, cooldownUntil := some (env.appliedAt + fromSecs c.cfg.cooldownSecs) }
  | .dryRun .. => { status with cooldownUntil := some (env.cooldownAt + fromSecs c.cfg.cooldownSecs) }
  | .blocked .. | .failed .. => status

/-- the backend call that an outcome stands for -/
def attemptCalls (client : ClientId) (id : VmId) (target : ℕ) : AppliedOutcome → List Effect
  | .success .. | .failed .. => [.setThreadCount client id target .automatic]
  | .dryRun .. | .blocked .. => []

/-- the controller after an attempt with outcome `o` -/
def afterAttempt (c : Controller E) (env : AttemptEnv) (id : VmId) (i : Instance) (target : ℕ) (o : AppliedOutcome) :
    Controller E :=
  (c.putStatus id i (c.attemptStatus env i.status target o)).report id o

theorem applyEngineDecision_eq (c : Controller E) (env : AttemptEnv) {id : VmId} {action : ScaleAction} {i : Instance}
    {t : ℕ} (hi : c.instances id = some i) (ht : action.target = some t) :
    c.applyEngineDecision env id action =
      (c.afterAttempt env id i t (c.attemptOutcome env i action t),
        attemptCalls i.client id t (c.attemptOutcome env i action t) ++ [.report id (c.attemptOutcome env i action t)],
        (c.attemptOutcome env i action t).isApplied) := by
  have hself : c.putStatus id i i.status = c := by
    have : Function.update c.instances id (some i) = c.instances := by rw [← hi, Function.update_eq_self]
    simp only [putStatus, this]
  unfold applyEngineDecision attemptOutcome afterAttempt
  simp only [hi, ht]
  cases c.guard i.status action t env.checkedAt with
  | some reason => simp [attemptStatus, attemptCalls, AppliedOutcome.isApplied, hself]
  | none =>
    cases c.cfg.dryRun with
    | true => simp [attemptStatus, attemptCalls, AppliedOutcome.isApplied]
    | false =>
      cases env.backend with
      | ok u => simp [attemptStatus, attemptCalls, AppliedOutcome.isApplied]
      | error e => simp [attemptStatus, attemptCalls, AppliedOutcome.isApplied, hself]

theorem applyEngineDecision_untracked (c : Controller E) (env : AttemptEnv) {id : VmId} (action : ScaleAction)
    (h : c.instances id = none) : c.applyEngineDecision env id action = (c, [], false) := by
  unfold applyEngineDecision
  rw [h]; cases action.target <;> rfl

theorem applyEngineDecision_hold (c : Controller E) (env : AttemptEnv) (id : VmId) {action : ScaleAction}
    (h : action.target = none) : c.applyEngineDecision env id action = (c, [], false) := by
  unfold applyEngineDecision
  rw [h]

@[simp] theorem attemptOutcome_action (c : Controller E) (env : AttemptEnv) (i : Instance) (action : ScaleAction)
    (t : ℕ) : (c.attemptOutcome env i action t).action = action := by
  unfold attemptOutcome
  repeat' split
  all_goals rfl

/-- what each reason of the guard chain says of the action that it stops -/
def Blocks (c : Controller E) (status : InstanceStatus) (action : ScaleAction) (t : ℕ) (now : Instant) :
    BlockedReason → Prop
  | .manualOverride => status.manualScalingSticky = true
  | .unmanagedVm => status.scalingPermitted = false
  | .targetBelowMinimum => t < c.cfg.minThreadCount
  | .targetExceedsMaximum => c.cfg.maxThreadCount < t
  | .targetExceedsVcpuCount => status.vcpuCount < t
  | .cooldown => action.isOrdinary = true ∧ ∃ u, status.cooldownUntil = some u ∧ now < u
  | .hostCpuCeiling => status.threadCount < t ∧ action.isUp = true ∧ c.cfg.hostCpuScaleUpCeiling ≤ c.hostCpuUtil

theorem guard_blocks {c : Controller E} {status : InstanceStatus} {action : ScaleAction} {t : ℕ} {now : Instant}
    {reason : BlockedReason} (h : c.guard status action t now = some reason) :
    c.Blocks status action t now reason := by
  unfold guard at h
  split_ifs at h with h1 h2 h3 h4 h5 h6 h7 <;> cases h
  · exact h1
  · exact h3
  · exact h4
  · exact h5
  · rw [Option.any_eq_true] at h6
    obtain ⟨hordinary, u, hu, hlt⟩ := h6
    exact ⟨hordinary, u, hu, of_decide_eq_true hlt⟩
  · exact ⟨h7.1, h7.2.1, h7.2.2.2⟩
  · exact Bool.eq_false_of_not_eq_true h2

/-- a blocked outcome carries the attempt's own action and what the guard chain says -/
theorem attemptOutcome_blocked {c : Controller E} {env : AttemptEnv} {i : Instance} {action action' : ScaleAction} {t : ℕ}
    {reason : BlockedReason} (h : c.attemptOutcome env i action t = .blocked action' reason) :
    action' = action ∧ c.guard i.status action t env.checkedAt = some reason := by
  unfold attemptOutcome at h
  cases hguard : c.guard i.status action t env.checkedAt with
  | none =>
    rw [hguard] at h
    cases hdry : c.cfg.dryRun <;> cases hbackend : env.backend <;> simp [hdry, hbackend] at h
  | some reason' =>
    rw [hguard] at h
    cases h
    exact ⟨rfl, rfl⟩

/-- the guard chain lets an action through exactly when every limit holds -/
theorem guard_eq_none (c : Controller E) (status : InstanceStatus) (action : ScaleAction) (t : ℕ) (now : Instant) :
    c.guard status action t now = none ↔
      status.manualScalingSticky = false ∧ status.ownershipClassification = some true ∧ c.cfg.minThreadCount ≤ t ∧
        t ≤ c.cfg.maxThreadCount ∧ t ≤ status.vcpuCount ∧
        (action.isOrdinary = true → ∀ u, status.cooldownUntil = some u → u ≤ now) ∧
        ¬ (status.threadCount < t ∧ action.isUp = true ∧ 0 < c.cfg.hostCpuScaleUpCeiling ∧
          c.cfg.hostCpuScaleUpCeiling ≤ c.hostCpuUtil) := by
  have hp : status.scalingPermitted = true ↔ status.ownershipClassification = some true := by
    unfold InstanceStatus.scalingPermitted
    rcases status.ownershipClassification with _ | _ | _ <;> simp
  have hc : ¬ (action.isOrdinary = true ∧ status.cooldownUntil.any (fun u => now < u) = true) ↔
      (action.isOrdinary = true → ∀ u, status.cooldownUntil = some u → u ≤ now) := by
    rcases status.cooldownUntil with _ | u <;> simp
  rw [← hc, ← hp]
  unfold guard
  split_ifs with h1 h2 h3 h4 h5 h6 h7 <;> simp_all

/-- a backend call is made exactly when the guards let the action through and dry run is off -/
theorem mem_attemptCalls {c : Controller E} {env : AttemptEnv} {i : Instance} {action : ScaleAction} {t : ℕ} {id : VmId}
    {e : Effect} (h : e ∈ attemptCalls i.client id t (c.attemptOutcome env i action t)) :
    e = .setThreadCount i.client id t .automatic ∧ c.guard i.status action t env.checkedAt = none ∧
      c.cfg.dryRun = false := by
  unfold attemptOutcome at h
  cases hg : c.guard i.status action t env.checkedAt with
  | some reason => simp [hg, attemptCalls] at h
  | none =>
    cases hd : c.cfg.dryRun with
    | true => simp [hg, hd, attemptCalls] at h
    | false =>
      refine ⟨?_, rfl, rfl⟩
      cases hb : env.backend <;> simpa [hg, hd, hb, attemptCalls] using h

/-! ## What an attempt leaves alone -/

/-- two controllers that differ only in the engine and in thread counts and cooldowns of records -/
structure Apart (c c' : Controller E) : Prop where
  cfg : c'.cfg = c.cfg
  hostCpuUtil : c'.hostCpuUtil = c.hostCpuUtil
  vmOwnership : c'.vmOwnership = c.vmOwnership
  instances : ∀ id, (c.instances id = none ∧ c'.instances id = none) ∨
    ∃ i i', c.instances id = some i ∧ c'.instances id = some i' ∧ ∃ n u,
      i' = { i with status := { i.status with threadCount := n, cooldownUntil := u } }

theorem Apart.refl (c : Controller E) : Apart c c := by
  refine ⟨rfl, rfl, rfl, ?_⟩
  intro id
  cases h : c.instances id with
  | none => exact Or.inl ⟨rfl, rfl⟩
  | some i => exact Or.inr ⟨i, i, rfl, rfl, i.status.threadCount, i.status.cooldownUntil, rfl⟩

theorem Apart.trans {a b c : Controller E} (h1 : Apart a b) (h2 : Apart b c) : Apart a c := by
  refine ⟨h2.cfg.trans h1.cfg, h2.hostCpuUtil.trans h1.hostCpuUtil, h2.vmOwnership.trans h1.vmOwnership,
    fun id => ?_⟩
  rcases h1.instances id with ⟨ha, hb⟩ | ⟨i, j, hi, hj, n, u, rfl⟩
  · rcases h2.instances id with ⟨_, hc⟩ | ⟨j, k, hj, _⟩
    · exact Or.inl ⟨ha, hc⟩
    · rw [hb] at hj; simp at hj
  · rcases h2.instances id with ⟨hb, _⟩ | ⟨j', k, hj', hk, n', u', rfl⟩
    · rw [hb] at hj; simp at hj
    · rw [hj] at hj'; cases hj'
      exact Or.inr ⟨i, _, hi, hk, n', u', rfl⟩

/-- a tracked VM stays tracked, with the same client, ownership, override, vCPU count and counters -/
theorem Apart.some {c c' : Controller E} (h : Apart c c') {id : VmId} {i : Instance} (hi : c.instances id = some i) :
    ∃ n u, c'.instances id = some { i with status := { i.status with threadCount := n, cooldownUntil := u } } := by
  rcases h.instances id with ⟨hn, _⟩ | ⟨i0, i', hi0, hi', n, u, rfl⟩
  · rw [hn] at hi; simp at hi
  · rw [hi] at hi0; cases hi0; exact ⟨n, u, hi'⟩

theorem Apart.isSome {c c' : Controller E} (h : Apart c c') (id : VmId) :
    (c'.instances id).isSome = (c.instances id).isSome := by
  rcases h.instances id with ⟨h1, h2⟩ | ⟨i, i', h1, h2, _⟩ <;> simp [h1, h2]

theorem afterAttempt_apart (c : Controller E) (env : AttemptEnv) {id : VmId} {i : Instance} (t : ℕ)
    (o : AppliedOutcome) (hi : c.instances id = some i) : Apart c (c.afterAttempt env id i t o) := by
  refine ⟨rfl, rfl, rfl, ?_⟩
  intro x
  by_cases hx : x = id
  · subst hx
    refine Or.inr ⟨i, { i with status := c.attemptStatus env i.status t o }, hi, ?_, ?_⟩
    · simp [afterAttempt, report, putStatus]
    cases o with
    | success a n k u => exact ⟨t, _, rfl⟩
    | dryRun a n k u => exact ⟨i.status.threadCount, _, rfl⟩
    | blocked a r => exact ⟨i.status.threadCount, i.status.cooldownUntil, rfl⟩
    | failed a e => exact ⟨i.status.threadCount, i.status.cooldownUntil, rfl⟩
  · have hsame : (c.afterAttempt env id i t o).instances x = c.instances x := by
      simp [afterAttempt, report, putStatus, Function.update_of_ne hx]
    rw [hsame]; exact (Apart.refl c).instances x

/-- an attempt leaves every other record as it was -/
theorem afterAttempt_other (c : Controller E) (env : AttemptEnv) {id x : VmId} (i : Instance) (t : ℕ)
    (o : AppliedOutcome) (hx : x ≠ id) : (c.afterAttempt env id i t o).instances x = c.instances x := by
  simp [afterAttempt, report, putStatus, Function.update_of_ne hx]

theorem applyEngineDecision_apart (c : Controller E) (env : AttemptEnv) (id : VmId) (action : ScaleAction) :
    Apart c (c.applyEngineDecision env id action).1 := by
  cases ht : action.target with
  | none => rw [applyEngineDecision_hold c env id ht]; exact Apart.refl c
  | some t =>
    cases hi : c.instances id with
    | none => rw [applyEngineDecision_untracked c env action hi]; exact Apart.refl c
    | some i => rw [applyEngineDecision_eq c env hi ht]; exact afterAttempt_apart c env t _ hi

/-! ## The attempts of a plan -/

/-- whether the per-poll cap is used up -/
def capReached (c : Controller E) (adjusted : ℕ) : Prop :=
  0 < c.cfg.maxInstancesAdjustedPerPoll ∧ c.cfg.maxInstancesAdjustedPerPoll ≤ adjusted

instance (c : Controller E) (adjusted : ℕ) : Decidable (c.capReached adjusted) := by unfold capReached; infer_instance

/-- the attempt on one plan entry -/
def tryEntry (c : Controller E) (attempt : VmId → AttemptEnv) (entry : PlanEntry) : Controller E × List Effect × Bool :=
  c.applyEngineDecision (attempt entry.instanceId) entry.instanceId entry.action

/-- the number of applied actions after an attempt -/
def countApplied (adjusted : ℕ) (applied : Bool) : ℕ := if applied then adjusted + 1 else adjusted

/-- the entries of a plan that reach `applyEngineDecision`, each with the controller it meets -/
def attempts (c : Controller E) (attempt : VmId → AttemptEnv) (adjusted : ℕ) :
    List PlanEntry → List (Controller E × PlanEntry)
  | [] => []
  | entry :: plan =>
    if c.capReached adjusted then c.attempts attempt adjusted plan
    else
      (c, entry) :: (c.tryEntry attempt entry).1.attempts attempt (countApplied adjusted (c.tryEntry attempt entry).2.2)
        plan

theorem applyPlan_cons (c : Controller E) (attempt : VmId → AttemptEnv) (adjusted : ℕ) (entry : PlanEntry)
    (plan : List PlanEntry) :
    c.applyPlan attempt adjusted (entry :: plan) =
      if c.capReached adjusted then c.applyPlan attempt adjusted plan
      else
        let r := c.tryEntry attempt entry
        let rest := r.1.applyPlan attempt (countApplied adjusted r.2.2) plan
        (rest.1, r.2.1 ++ rest.2) := rfl

theorem applyPlan_effects (c : Controller E) (attempt : VmId → AttemptEnv) (adjusted : ℕ) (plan : List PlanEntry) :
    (c.applyPlan attempt adjusted plan).2 =
      (c.attempts attempt adjusted plan).flatMap fun x => (x.1.tryEntry attempt x.2).2.1 := by
  induction plan generalizing c adjusted with
  | nil => rfl
  | cons entry plan ih =>
    rw [applyPlan_cons, attempts]
    by_cases h : c.capReached adjusted
    · rw [if_pos h, if_pos h]; exact ih c adjusted
    · rw [if_neg h, if_neg h, List.flatMap_cons]
      simp only [ih]

theorem applyPlan_apart (c : Controller E) (attempt : VmId → AttemptEnv) (adjusted : ℕ) (plan : List PlanEntry) :
    Apart c (c.applyPlan attempt adjusted plan).1 := by
  induction plan generalizing c adjusted with
  | nil => exact Apart.refl c
  | cons entry plan ih =>
    rw [applyPlan_cons]
    by_cases h : c.capReached adjusted
    · rw [if_pos h]; exact ih c adjusted
    · rw [if_neg h]; exact (applyEngineDecision_apart c _ _ _).trans (ih _ _)

/-- every attempt is an entry of the plan and meets a controller apart from the first one -/
theorem attempts_inv {c : Controller E} {attempt : VmId → AttemptEnv} {adjusted : ℕ} {plan : List PlanEntry}
    {x : Controller E × PlanEntry} (hx : x ∈ c.attempts attempt adjusted plan) : x.2 ∈ plan ∧ Apart c x.1 := by
  induction plan generalizing c adjusted with
  | nil => simp [attempts] at hx
  | cons entry plan ih =>
    rw [attempts] at hx
    by_cases h : c.capReached adjusted
    · rw [if_pos h] at hx
      exact ⟨List.mem_cons_of_mem _ (ih hx).1, (ih hx).2⟩
    · rw [if_neg h] at hx
      rcases List.mem_cons.1 hx with rfl | hx
      · exact ⟨List.mem_cons_self, Apart.refl c⟩
      · exact ⟨List.mem_cons_of_mem _ (ih hx).1, (applyEngineDecision_apart c _ _ _).trans (ih hx).2⟩

/-! ## The plan of a tick -/

/-- every plan entry is an engine decision for a tracked VM whose target differs from the current count -/
theorem mem_buildPlan {instances : VmId → Option Instance} {planned : List VmId} {sequence : ℕ}
    {decisions : List InstanceDecision} {e : PlanEntry} (h : e ∈ buildPlan instances planned sequence decisions) :
    e.instanceId ∉ planned ∧ ⟨e.instanceId, e.action⟩ ∈ decisions ∧ ∃ i t, instances e.instanceId = some i ∧
      e.action.target = some t ∧ t ≠ i.status.threadCount ∧ e.isUp = decide (i.status.threadCount < t) := by
  induction decisions generalizing planned sequence with
  | nil => simp [buildPlan] at h
  | cons d decisions ih =>
    rw [buildPlan] at h
    split_ifs at h with hp
    · obtain ⟨h1, h2, h3⟩ := ih h
      exact ⟨h1, List.mem_cons_of_mem _ h2, h3⟩
    · have hrest : e ∈ buildPlan instances (d.instanceId :: planned) (sequence + 1) decisions →
          e.instanceId ∉ planned ∧ ⟨e.instanceId, e.action⟩ ∈ d :: decisions ∧ ∃ i t,
            instances e.instanceId = some i ∧ e.action.target = some t ∧ t ≠ i.status.threadCount ∧
              e.isUp = decide (i.status.threadCount < t) := by
        intro h
        obtain ⟨h1, h2, h3⟩ := ih h
        exact ⟨fun hm => h1 (List.mem_cons_of_mem _ hm), List.mem_cons_of_mem _ h2, h3⟩
      dsimp only at h
      split at h
      · rename_i i t hi ht
        split_ifs at h with heq
        · exact hrest h
        · rcases List.mem_cons.1 h with rfl | h
          · exact ⟨hp, List.mem_cons_self, i, t, hi, ht, heq, rfl⟩
          · exact hrest h
      · exact hrest h

theorem mem_planOf {c : Controller E} {decisions : List InstanceDecision} {e : PlanEntry} :
    e ∈ c.planOf decisions ↔ e ∈ buildPlan c.instances [] 0 decisions :=
  (List.perm_insertionSort _ _).mem_iff

/-- no VM has two entries in a plan -/
theorem buildPlan_nodup (instances : VmId → Option Instance) (planned : List VmId) (sequence : ℕ)
    (decisions : List InstanceDecision) :
    ((buildPlan instances planned sequence decisions).map PlanEntry.instanceId).Nodup := by
  induction decisions generalizing planned sequence with
  | nil => simp [buildPlan]
  | cons d decisions ih =>
    rw [buildPlan]
    split_ifs with hp
    · exact ih planned (sequence + 1)
    · dsimp only
      split
      · split_ifs with heq
        · exact ih _ _
        · rw [List.map_cons, List.nodup_cons]
          refine ⟨?_, ih _ _⟩
          intro hm
          obtain ⟨e, he, heid⟩ := List.mem_map.1 hm
          exact (mem_buildPlan he).1 (heid ▸ List.mem_cons_self)
      · exact ih _ _

theorem planOf_nodup (c : Controller E) (decisions : List InstanceDecision) :
    ((c.planOf decisions).map PlanEntry.instanceId).Nodup :=
  ((List.perm_insertionSort _ _).map _).nodup_iff.2 (buildPlan_nodup _ _ _ _)

end IoThreadController.Controller
