/-
The hard limits of actuation, against every engine.

- `WithinLimits`: what must hold of a VM's status before the backend is asked for a new pool size.
- `attempt_report`: one attempt on a tracked VM reports one outcome, and touches the record only as that outcome says.
- `tick_within_limits`: both facts for the ticks of an arbitrary engine, from any controller state.
-/
import IoThreadController.Fleet.Tick

namespace IoThreadController

/-- the limits on asking the backend for `t` workers; the cooldown concerns scale-up and scale-down only -/
structure WithinLimits (cfg : Config) (status : InstanceStatus) (action : ScaleAction) (t : ℕ) (now : Instant) :
    Prop where
  notSticky : status.manualScalingSticky = false
  managed : status.ownershipClassification = some true
  min_le : cfg.minThreadCount ≤ t
  le_max : t ≤ cfg.maxThreadCount
  le_vcpu : t ≤ status.vcpuCount
  cooledDown : action.isOrdinary = true → ∀ until', status.cooldownUntil = some until' → until' ≤ now

def AppliedOutcome.isSuccess : AppliedOutcome → Bool
  | .success .. => true
  | .dryRun .. | .blocked .. | .failed .. => false

/-- what one attempt leaves behind: one report, and a record that changed only as far as the outcome says -/
def ReportedOnce {E : ScalingEngine} (c : Controller E) (id : VmId) (i : Instance) (action : ScaleAction)
    (r : Controller E × List Effect × Bool) : Prop :=
  ∃ outcome i', r.2.1.filterMap reported = [(id, outcome)] ∧ outcome.action = action ∧
    r.1.engine = E.onApplied c.engine id outcome ∧ r.1.instances id = some i' ∧
    (outcome.isSuccess = false → i'.status.threadCount = i.status.threadCount) ∧
    (outcome.isApplied = false → i'.status.cooldownUntil = i.status.cooldownUntil)

namespace Controller

variable {E : ScalingEngine}

theorem withinLimits_of_guard {c : Controller E} {status : InstanceStatus} {action : ScaleAction} {t : ℕ} {now : Instant}
    (h : c.guard status action t now = none) : WithinLimits c.cfg status action t now := by
  obtain ⟨h1, h2, h3, h4, h5, h6, -⟩ := (guard_eq_none c status action t now).1 h
  exact ⟨h1, h2, h3, h4, h5, h6⟩

theorem attempt_report (c : Controller E) (env : AttemptEnv) {id : VmId} {action : ScaleAction} {i : Instance} {t : ℕ}
    (hi : c.instances id = some i) (ht : action.target = some t) :
    ReportedOnce c id i action (c.applyEngineDecision env id action) := by
  rw [applyEngineDecision_eq c env hi ht]
  have hact : (c.attemptOutcome env i action t).action = action := attemptOutcome_action c env i action t
  generalize c.attemptOutcome env i action t = o at hact ⊢
  refine ⟨o, { i with status := c.attemptStatus env i.status t o }, ?_, hact, rfl, ?_, ?_, ?_⟩
  · cases o <;> rfl
  · simp [afterAttempt, report, putStatus]
  · intro hs
    cases o with
    | success a n k u => cases hs
    | dryRun a n k u => rfl
    | blocked a r => rfl
    | failed a e => rfl
  · intro hs
    cases o with
    | success a n k u => cases hs
    | dryRun a n k u => cases hs
    | blocked a r => rfl
    | failed a e => rfl

/-- an automatic resize in an attempt is that attempt's own call, made with dry run off and within the limits -/
theorem attempt_resize {c : Controller E} {attempt : VmId → AttemptEnv} {entry : PlanEntry} {client : ClientId}
    {vm : VmId} {t : ℕ}
    (h : Effect.setThreadCount client vm t .automatic ∈ (c.tryEntry attempt entry).2.1) :
    entry.instanceId = vm ∧ c.cfg.dryRun = false ∧ ∃ i, c.instances vm = some i ∧ i.client = client ∧
      entry.action.target = some t ∧ WithinLimits c.cfg i.status entry.action t (attempt vm).checkedAt := by
  unfold tryEntry at h
  cases ht : entry.action.target with
  | none => rw [applyEngineDecision_hold c _ _ ht] at h; simp at h
  | some t' =>
    cases hi : c.instances entry.instanceId with
    | none => rw [applyEngineDecision_untracked c _ _ hi] at h; simp at h
    | some i =>
      rw [applyEngineDecision_eq c _ hi ht] at h
      rcases List.mem_append.1 h with h | h
      · obtain ⟨he, hg, hd⟩ := mem_attemptCalls h
        cases he
        exact ⟨rfl, hd, i, hi, rfl, rfl, withinLimits_of_guard hg⟩
      · cases List.mem_singleton.1 h

theorem not_mem_prepareTick (c : Controller E) (env : TickEnv) (client : ClientId) (vm : VmId) (t : ℕ) :
    Effect.setThreadCount client vm t .automatic ∉ (c.prepareTick env).2.1 := by
  intro h
  have hq : automaticResize (.setThreadCount client vm t .automatic) = none := (prepareTick_quiet c env _ h).1
  cases hq

/-- an automatic resize of a tick belongs to one of its attempts -/
theorem mem_tick_resize {c : Controller E} {env : TickEnv} {client : ClientId} {vm : VmId} {t : ℕ}
    (h : Effect.setThreadCount client vm t .automatic ∈ (c.tick env).2.1) :
    ∃ x ∈ c.tickAttempts env, Effect.setThreadCount client vm t .automatic ∈ (x.1.tryEntry env.attempt x.2).2.1 := by
  rw [tick_effects] at h
  rcases List.mem_append.1 h with h | h
  · exact absurd h (not_mem_prepareTick c env client vm t)
  · exact List.mem_flatMap.1 h

/-- the reports of a tick are the reports of its attempts, in order -/
theorem tick_reports (c : Controller E) (env : TickEnv) :
    (c.tick env).2.1.filterMap reported =
      (c.tickAttempts env).flatMap fun x => (x.1.tryEntry env.attempt x.2).2.1.filterMap reported := by
  have hquiet : (c.prepareTick env).2.1.filterMap reported = [] :=
    List.filterMap_eq_nil_iff.2 fun e he => (prepareTick_quiet c env e he).2
  rw [tick_effects, List.filterMap_append, hquiet, List.nil_append, List.filterMap_flatMap]

/-- in every tick of every engine, an automatic resize stays within the limits of the refreshed record, and every
attempt on a tracked VM reports exactly once and keeps the record unless the action was applied -/
theorem tick_within_limits (c : Controller E) (env : TickEnv) :
    (∀ client vm t, Effect.setThreadCount client vm t .automatic ∈ (c.tick env).2.1 →
      c.cfg.dryRun = false ∧ ∃ x ∈ c.tickAttempts env, ∃ i, x.2.instanceId = vm ∧ x.1.instances vm = some i ∧
        c.refreshedRecord env vm = some i ∧ i.client = client ∧ x.2.action.target = some t ∧
        WithinLimits c.cfg i.status x.2.action t (env.attempt vm).checkedAt) ∧
    (∀ (c' : Controller E) (attemptEnv : AttemptEnv) (vm : VmId) (action : ScaleAction) (i : Instance) (t : ℕ),
      c'.instances vm = some i → action.target = some t →
      ReportedOnce c' vm i action (c'.applyEngineDecision attemptEnv vm action)) ∧
    (∀ x ∈ c.tickAttempts env, ∃ i, x.1.instances x.2.instanceId = some i ∧
      ReportedOnce x.1 x.2.instanceId i x.2.action (x.1.tryEntry env.attempt x.2)) ∧
    (c.tick env).2.1.filterMap reported =
      (c.tickAttempts env).flatMap fun x => (x.1.tryEntry env.attempt x.2).2.1.filterMap reported := by
  refine ⟨?_, fun c' e vm action i t hi ht => attempt_report c' e hi ht, ?_, tick_reports c env⟩
  · intro client vm t h
    obtain ⟨x, hx, hmem⟩ := mem_tick_resize h
    obtain ⟨hcfg, -, j, t', hrec, hj, -, -⟩ := tickAttempts_spec hx
    obtain ⟨rfl, hdry, i, hi, hclient, htarget, hlimits⟩ := attempt_resize hmem
    have hij : j = i := by rw [hi] at hj; exact (Option.some.inj hj).symm
    rw [hcfg] at hdry hlimits
    exact ⟨hdry, x, hx, i, rfl, hi, hij ▸ hrec, hclient, htarget, hlimits⟩
  · intro x hx
    obtain ⟨-, -, i, t, -, hi, ht, -⟩ := tickAttempts_spec hx
    exact ⟨i, hi, attempt_report x.1 _ hi ht⟩

end Controller

end IoThreadController
