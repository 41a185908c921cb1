/-
The host CPU ceiling.

On a hot host the guard stops scale-ups that raise a count. It looks at the kind of an action and not only at its target, so
what a hot tick can still grow is decided by the scale-downs that the engine asks for.

- `attempt_resize_iff`: an attempt asks the backend for a new size exactly when the guards let it through and dry run is
  off.
- `down_resizes`, `hot_resize`: which attempts resize on a hot host. Scale-downs within the limits do, whatever they ask
  for, and growth comes from these and from reverts only.
- `neverHotter_iff`: a hot tick raises no count except by a revert exactly when every scale-down that it attempts within the
  limits is one (`DownLowers`). `never_hotter_iff` is the same for whole runs of every engine.
- `down_raises`: an engine whose scale-downs ask for one worker more, on a busy host.
-/
import IoThreadController.Fleet.Evaluation

namespace IoThreadController

variable {E : ScalingEngine}

namespace Controller

/-- the guard is on and the host is at or above the ceiling in this tick -/
def IsHot (c : Controller E) (env : TickEnv) : Prop :=
  0 < c.cfg.hostCpuScaleUpCeiling ∧ c.cfg.hostCpuScaleUpCeiling ≤ (c.beginTick env).hostCpuUtil

/-- the utilisation that the guard compares is the one at the begin of the tick -/
@[simp] theorem decidedTick_hostCpuUtil (c : Controller E) (env : TickEnv) :
    (c.decidedTick env).1.hostCpuUtil = (c.beginTick env).hostCpuUtil := by
  have hprep : (c.prepareTick env).1.hostCpuUtil = (c.beginTick env).hostCpuUtil := by
    unfold prepareTick
    simp only [(persist_frame _ _ _).2.2.2, refreshFleet]
  exact hprep

theorem tickAttempts_nodup (c : Controller E) (env : TickEnv) :
    ((c.tickAttempts env).map fun x => x.2.instanceId).Nodup := by
  rw [← tickReports_map]
  exact tickReports_nodup c env

theorem attempt_resize_iff {c : Controller E} {attempt : VmId → AttemptEnv} {entry : PlanEntry} {i : Instance} {t : ℕ}
    (hi : c.instances entry.instanceId = some i) (ht : entry.action.target = some t) :
    Effect.setThreadCount i.client entry.instanceId t .automatic ∈ (c.tryEntry attempt entry).2.1 ↔
      c.guard i.status entry.action t (attempt entry.instanceId).checkedAt = none ∧ c.cfg.dryRun = false := by
  unfold tryEntry
  rw [applyEngineDecision_eq c _ hi ht]
  constructor
  · intro h
    rcases List.mem_append.1 h with h | h
    · exact (mem_attemptCalls h).2
    · cases List.mem_singleton.1 h
  · intro hpass
    obtain ⟨hguard, hdry⟩ := hpass
    apply List.mem_append_left
    unfold attemptOutcome
    rw [hguard, hdry]
    cases (attempt entry.instanceId).backend with
    | ok u => exact List.mem_singleton_self _
    | error e => exact List.mem_singleton_self _

end Controller

open Controller

/-- on a hot host, an automatic resize of the event raises no count unless the action is a revert -/
def NeverHotter : Option (Controller E) → Event → Prop
  | some c, .tick env => c.IsHot env → ∀ client vm t, .setThreadCount client vm t .automatic ∈ (c.tick env).2.1 →
      ∀ i, c.refreshedRecord env vm = some i → i.status.threadCount < t →
        ∃ x ∈ c.tickAttempts env, x.2.instanceId = vm ∧ x.2.action = .revert t
  | _, _ => True

/-- on a hot host, every scale-down that the event attempts within the limits asks for no more workers than there are, or
dry run is on -/
def DownLowers : Option (Controller E) → Event → Prop
  | some c, .tick env => c.IsHot env → c.cfg.dryRun = false → ∀ x ∈ c.tickAttempts env, ∀ t, x.2.action = .down t →
      ∀ i, c.refreshedRecord env x.2.instanceId = some i →
        WithinLimits c.cfg i.status (.down t) t (env.attempt x.2.instanceId).checkedAt → t ≤ i.status.threadCount
  | _, _ => True

/-- an attempt on a scale-down within the limits reaches the backend, however many workers it asks for: the ceiling guard
does not look at scale-downs -/
theorem down_resizes {c : Controller E} {env : TickEnv} {x : Controller E × PlanEntry} (hx : x ∈ c.tickAttempts env)
    {t : ℕ} (hdown : x.2.action = .down t) {i : Instance} (hrec : c.refreshedRecord env x.2.instanceId = some i)
    (hdry : c.cfg.dryRun = false)
    (hlimits : WithinLimits c.cfg i.status (.down t) t (env.attempt x.2.instanceId).checkedAt) :
    Effect.setThreadCount i.client x.2.instanceId t .automatic ∈ (c.tick env).2.1 := by
  obtain ⟨hcfg, -, j, t', hj, hxj, -⟩ := tickAttempts_spec hx
  obtain rfl : j = i := Option.some.inj (hj.symm.trans hrec)
  have ht : x.2.action.target = some t := by rw [hdown]; rfl
  have hguard : x.1.guard j.status x.2.action t (env.attempt x.2.instanceId).checkedAt = none := by
    rw [guard_eq_none, hcfg, hdown]
    refine ⟨hlimits.notSticky, hlimits.managed, hlimits.min_le, hlimits.le_max, hlimits.le_vcpu,
      hlimits.cooledDown, ?_⟩
    intro hceiling
    simp [ScaleAction.isUp] at hceiling
  have hcall := (attempt_resize_iff hxj ht).2 ⟨hguard, hcfg ▸ hdry⟩
  rw [tick_effects]
  exact List.mem_append_right _ (List.mem_flatMap.2 ⟨x, hx, hcall⟩)

/-- on a hot host the attempt behind an automatic resize that raises a count is a scale-down within the limits or a
revert -/
theorem hot_resize {c : Controller E} {env : TickEnv} (hhot : c.IsHot env) {client : ClientId} {vm : VmId} {t : ℕ}
    (heffect : .setThreadCount client vm t .automatic ∈ (c.tick env).2.1) {i : Instance}
    (hrec : c.refreshedRecord env vm = some i) (hlt : i.status.threadCount < t) :
    ∃ x ∈ c.tickAttempts env, x.2.instanceId = vm ∧ (x.2.action = .revert t ∨ x.2.action = .down t ∧
      c.cfg.dryRun = false ∧ WithinLimits c.cfg i.status (.down t) t (env.attempt vm).checkedAt) := by
  obtain ⟨x, hx, hmem⟩ := mem_tick_resize heffect
  obtain ⟨hcfg, -, j, t', hj, hxj, -⟩ := tickAttempts_spec hx
  obtain ⟨rfl, hdry, k, hk, rfl, htarget, hlimits⟩ := attempt_resize hmem
  obtain rfl : k = j := Option.some.inj (hk.symm.trans hxj)
  obtain rfl : k = i := Option.some.inj (hj.symm.trans hrec)
  refine ⟨x, hx, rfl, ?_⟩
  rw [hcfg] at hdry hlimits
  cases haction : x.2.action with
  | none => rw [haction] at htarget; simp [ScaleAction.target] at htarget
  | up t' =>
    -- the ceiling guard stops it
    obtain ⟨hguard, -⟩ := (attempt_resize_iff hxj htarget).1 hmem
    obtain ⟨-, -, -, -, -, -, hceiling⟩ := (guard_eq_none _ _ _ _ _).1 hguard
    refine absurd ⟨hlt, by rw [haction]; rfl, ?_⟩ hceiling
    rw [hcfg, (tickAttempts_apart hx).hostCpuUtil, decidedTick_hostCpuUtil]
    exact hhot
  | down t' =>
    rw [haction] at htarget hlimits
    obtain rfl : t' = t := Option.some.inj htarget
    exact Or.inr ⟨rfl, hdry, hlimits⟩
  | revert t' =>
    rw [haction] at htarget
    exact Or.inl (congrArg ScaleAction.revert (Option.some.inj htarget))

theorem neverHotter_iff (p : Option (Controller E)) (ev : Event) : NeverHotter p ev ↔ DownLowers p ev := by
  rcases p with _ | c
  · exact Iff.rfl
  cases ev with
  | sync ds order => exact Iff.rfl
  | setThreadCount vm threads sticky backend => exact Iff.rfl
  | setAllThreadCounts threads sticky backend order => exact Iff.rfl
  | query => exact Iff.rfl
  | tick env =>
    refine imp_congr_right ?_
    intro hhot
    constructor
    · intro hnever hdry x hx t hdown i hrec hlimits
      by_contra hlt
      have heffect := down_resizes hx hdown hrec hdry hlimits
      obtain ⟨y, hy, hid, hrevert⟩ := hnever _ _ t heffect i hrec (not_le.1 hlt)
      obtain rfl : y = x := List.inj_on_of_nodup_map (c.tickAttempts_nodup env) hy hx hid
      rw [hdown] at hrevert
      simp at hrevert
    · intro hlowers client vm t heffect i hrec hlt
      obtain ⟨x, hx, rfl, hrevert | ⟨hdown, hdry, hlimits⟩⟩ := hot_resize hhot heffect hrec hlt
      · exact ⟨x, hx, rfl, hrevert⟩
      · exact absurd hlt (not_lt.2 (hlowers hdry x hx t hdown i hrec hlimits))

/-- in every run of every engine, no hot tick raises a count except by a revert, exactly when the scale-downs of the hot
ticks lower theirs -/
theorem never_hotter_iff (cfg : Config) (engine : E.State) (o : VmOwnership) (es : List Event) :
    Core.Along procStep NeverHotter (some (Controller.new cfg engine o : Controller E)) es ↔
      Core.Along procStep DownLowers (some (Controller.new cfg engine o : Controller E)) es := by
  apply Core.along_iff_of_inv (fun _ => True) _ _ trivial (Core.along_true procStep _ es)
  · intro p ev _ _
    trivial
  · intro p ev _ _
    exact neverHotter_iff p ev

/-- an engine whose scale-downs ask for one worker more -/
def raisingDown : ScalingEngine := .stateless fun i => .down (i.status.threadCount + 1)

/-- the host is at full load, and the second tick grows a pool by a scale-down -/
theorem down_raises : ¬ ∀ (E : ScalingEngine) (cfg : Config) (engine : E.State) (o : VmOwnership) (es : List Event),
    Core.Along procStep NeverHotter (some (Controller.new cfg engine o : Controller E)) es := by
  intro hevery
  let idle : ThreadPoolSnapshot := { threadCount := 2, vcpuCount := 8, perThreadUtil := some 0 }
  let first : TickEnv := { TickEnv.single "vm" 0 0 (.error "timeout") with hostCpu := some ⟨0, 0⟩ }
  let second : TickEnv := { TickEnv.single "vm" 0 0 (.ok idle) with hostCpu := some ⟨100, 100⟩ }
  let discover : Event := .sync [⟨"vm", 1⟩] ["vm"]
  have hrun := hevery raisingDown {} () { managedVms := {"vm"} } [.tick first, discover, .tick second]
  let c : Controller raisingDown := ((Controller.new {} () { managedVms := {"vm"} } : Controller raisingDown).step
    (.tick first)).1
  let c' : Controller raisingDown := (c.step discover).1
  have hnever : NeverHotter (some c') (.tick second) := hrun.2.2.1
  have hcount : (c'.refreshedRecord second "vm").map (fun i => i.status.threadCount) = some 2 := by decide +kernel
  obtain ⟨i, hi, htwo⟩ := Option.map_eq_some_iff.1 hcount
  have hhot : c'.IsHot second := by
    unfold Controller.IsHot
    decide +kernel
  have heffect : Effect.setThreadCount 1 "vm" 3 .automatic ∈ (c'.tick second).2.1 := by decide +kernel
  obtain ⟨x, hx, -, hrevert⟩ := hnever hhot 1 "vm" 3 heffect i hi (by omega)
  have hdown : (c'.tickAttempts second).all (fun x => ! x.2.action.isRevert) = true := by decide +kernel
  have hnot := List.all_eq_true.1 hdown x hx
  rw [hrevert] at hnot
  simp [ScaleAction.isRevert] at hnot

end IoThreadController
