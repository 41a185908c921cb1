/-
The threshold engine inside a tick.

- `evaluation`: what the engine computes for one VM in a tick; `mem_decisions` and `decided_state` say that a tick
  evaluates exactly so.
- `applyPlan_engine`: every engine sees exactly the reports of the plan, in order.
- `tickOutcome`: the outcome reported for a VM in a tick. `tickOutcome_some` and `tickOutcome_of_attempt` describe it,
  `tick_record` says what it does to the record.
- `step_spares`: an event that does not evaluate a VM keeps its engine state or forgets it.
- `tick_drives`, `step_refines`: a tick acts on the engine state of an evaluated VM as one driven poll, and every event
  acts on every engine state as at most one driven event. `run_refines` is the same for whole runs.
-/
import IoThreadController.Fleet.Inventory
import IoThreadController.Threshold.Drive

namespace IoThreadController

variable {T : ThresholdEngine}

/-- left out by `evaluate_fleet` -/
def Instance.skipped (i : Instance) : Bool := i.status.manualScalingSticky || ! i.status.scalingAllowed

/-! ## The whole fleet -/

namespace ThresholdEngine

theorem evaluateFleet_skip {i : Instance} (h : i.skipped = true) (states : VmId → Option InstanceState)
    (context : EngineTickContext) (fleet : List Instance) :
    evaluateFleetDefault T.evaluate states context (i :: fleet) =
      evaluateFleetDefault T.evaluate states context fleet := by
  have hc : i.status.manualScalingSticky = true ∨ ¬ i.status.scalingAllowed = true := by
    simpa [Instance.skipped] using h
  rw [evaluateFleetDefault, if_pos hc]

theorem evaluateFleet_cons {i : Instance} (h : i.skipped = false) (states : VmId → Option InstanceState)
    (context : EngineTickContext) (fleet : List Instance) :
    evaluateFleetDefault T.evaluate states context (i :: fleet) =
      let r := T.evaluateInstance ((states i.id).getD .new) i.status context
      let rest := evaluateFleetDefault T.evaluate (Function.update states i.id (some r.1)) context fleet
      (rest.1, ⟨i.id, r.2⟩ :: rest.2) := by
  have hc : ¬ (i.status.manualScalingSticky = true ∨ ¬ i.status.scalingAllowed = true) := by
    simpa [Instance.skipped] using h
  rw [evaluateFleetDefault, if_neg hc]
  rfl

/-- with distinct ids, the decisions are those of the VMs that are not skipped, each on its own state -/
theorem evaluateFleet_decisions (states : VmId → Option InstanceState) (context : EngineTickContext)
    {fleet : List Instance} (hn : (fleet.map Instance.id).Nodup) :
    (evaluateFleetDefault T.evaluate states context fleet).2 =
      (fleet.filter fun i => ! i.skipped).map fun i =>
        ⟨i.id, (T.evaluateInstance ((states i.id).getD .new) i.status context).2⟩ := by
  induction fleet generalizing states with
  | nil => rfl
  | cons i fleet ih =>
    rw [List.map_cons, List.nodup_cons] at hn
    cases hs : i.skipped with
    | true => rw [evaluateFleet_skip hs, ih states hn.2]; simp [hs]
    | false =>
      rw [evaluateFleet_cons hs]
      dsimp only
      rw [ih _ hn.2]
      simp only [hs, Bool.not_false, List.filter_cons_of_pos, List.map_cons, List.cons.injEq, true_and]
      refine List.map_congr_left ?_
      intro j hj
      have hne : j.id ≠ i.id := by
        intro heq
        exact hn.1 (heq ▸ List.mem_map_of_mem (List.mem_of_mem_filter hj))
      rw [Function.update_of_ne hne]

/-- a VM that is not skipped gets its evaluated state -/
theorem evaluateFleet_state (states : VmId → Option InstanceState) (context : EngineTickContext)
    {fleet : List Instance} (hn : (fleet.map Instance.id).Nodup) {i : Instance} (hi : i ∈ fleet)
    (hs : i.skipped = false) :
    (evaluateFleetDefault T.evaluate states context fleet).1 i.id =
      some (T.evaluateInstance ((states i.id).getD .new) i.status context).1 := by
  induction fleet generalizing states with
  | nil => simp at hi
  | cons j fleet ih =>
    rw [List.map_cons, List.nodup_cons] at hn
    have hrest : ∀ st : VmId → Option InstanceState, i.id ∉ fleet.map Instance.id →
        (evaluateFleetDefault T.evaluate st context fleet).1 i.id = st i.id := by
      intro st hnot
      clear ih hi hn
      induction fleet generalizing st with
      | nil => rfl
      | cons k fleet ih =>
        rw [List.map_cons, List.mem_cons, not_or] at hnot
        cases hk : k.skipped with
        | true => rw [evaluateFleet_skip hk]; exact ih st hnot.2
        | false =>
          rw [evaluateFleet_cons hk]
          dsimp only
          rw [ih _ hnot.2, Function.update_of_ne hnot.1]
    rcases List.mem_cons.1 hi with rfl | hi
    · rw [evaluateFleet_cons hs]
      dsimp only
      rw [hrest _ hn.1, Function.update_self]
    · have hne : i.id ≠ j.id := fun heq => hn.1 (heq ▸ List.mem_map_of_mem hi)
      cases hj : j.skipped with
      | true => rw [evaluateFleet_skip hj]; exact ih states hn.2 hi
      | false =>
        rw [evaluateFleet_cons hj]
        dsimp only
        rw [ih _ hn.2 hi, Function.update_of_ne hne]

/-- every other state stays as it was -/
theorem evaluateFleet_other (states : VmId → Option InstanceState) (context : EngineTickContext)
    {fleet : List Instance} {id : VmId} (h : ∀ i ∈ fleet, i.id = id → i.skipped = true) :
    (evaluateFleetDefault T.evaluate states context fleet).1 id = states id := by
  induction fleet generalizing states with
  | nil => rfl
  | cons j fleet ih =>
    have hrest := fun st => ih st fun i hi => h i (List.mem_cons_of_mem _ hi)
    cases hj : j.skipped with
    | true => rw [evaluateFleet_skip hj]; exact hrest states
    | false =>
      have hne : id ≠ j.id := by
        rintro rfl
        rw [h j List.mem_cons_self rfl] at hj
        simp at hj
      rw [evaluateFleet_cons hj]
      dsimp only
      rw [hrest, Function.update_of_ne hne]

theorem foldl_removed (states : VmId → Option InstanceState) (fleet : List Instance) (id : VmId) :
    (fleet.foldl (fun st i => onInstanceRemoved st i.id) states) id =
      if id ∈ fleet.map Instance.id then none else states id := by
  induction fleet generalizing states with
  | nil => simp
  | cons i fleet ih =>
    rw [List.foldl_cons, ih]
    by_cases hid : id = i.id
    · subst hid; simp [onInstanceRemoved]
    · simp [onInstanceRemoved, hid]

/-- outcomes of distinct VMs act on the states one by one -/
theorem foldl_onApplied (states : VmId → Option InstanceState) {reports : List (VmId × AppliedOutcome)}
    (hn : (reports.map Prod.fst).Nodup) (id : VmId) :
    (reports.foldl (fun st r => T.onApplied st r.1 r.2) states) id =
      match reports.lookup id with
      | none => states id
      | some o => (states id).map fun s => T.applyOutcome s o := by
  have hone : ∀ (st : VmId → Option InstanceState) (r : VmId × AppliedOutcome),
      T.onApplied st r.1 r.2 id = if id = r.1 then (st id).map (fun s => T.applyOutcome s r.2) else st id := by
    intro st r
    unfold onApplied
    by_cases hid : id = r.1
    · subst hid
      cases hs : st r.1 with
      | none => simp [hs]
      | some s => simp
    · rw [if_neg hid]
      cases st r.1 with
      | none => rfl
      | some s => exact Function.update_of_ne hid _ _
  induction reports generalizing states with
  | nil => rfl
  | cons r reports ih =>
    obtain ⟨vm, outcome⟩ := r
    rw [List.map_cons, List.nodup_cons] at hn
    rw [List.foldl_cons, ih _ hn.2, hone]
    by_cases hid : id = vm
    · have hnone : reports.lookup id = none := by
        rw [List.lookup_eq_none_iff]
        intro q hq
        have hne : id ≠ q.1 := fun heq => hn.1 (List.mem_map.2 ⟨q, hq, heq.symm.trans hid⟩)
        simpa using hne
      have hself : (id == vm) = true := by simpa using hid
      simp only [hnone, if_pos hid, List.lookup_cons, hself]
    · have hother : (id == vm) = false := beq_eq_false_iff_ne.mpr hid
      simp only [if_neg hid, List.lookup_cons, hother]

end ThresholdEngine

/-! ## One tick -/

namespace Controller

section Reports

variable {E : ScalingEngine}

/-- the reports of one attempt are what the engine sees of it -/
theorem tryEntry_engine (c : Controller E) (attempt : VmId → AttemptEnv) (entry : PlanEntry) :
    (c.tryEntry attempt entry).1.engine =
      ((c.tryEntry attempt entry).2.1.filterMap reported).foldl (fun st r => E.onApplied st r.1 r.2) c.engine := by
  unfold tryEntry
  cases ht : entry.action.target with
  | none => rw [applyEngineDecision_hold c _ _ ht]; rfl
  | some t =>
    cases hi : c.instances entry.instanceId with
    | none => rw [applyEngineDecision_untracked c _ _ hi]; rfl
    | some i =>
      rw [applyEngineDecision_eq c _ hi ht]
      generalize c.attemptOutcome (attempt entry.instanceId) i entry.action t = o
      cases o <;> rfl

/-- an engine sees exactly the reports of a plan, in order -/
theorem applyPlan_engine (c : Controller E) (attempt : VmId → AttemptEnv) (adjusted : ℕ) (plan : List PlanEntry) :
    (c.applyPlan attempt adjusted plan).1.engine =
      ((c.applyPlan attempt adjusted plan).2.filterMap reported).foldl (fun st r => E.onApplied st r.1 r.2)
        c.engine := by
  induction plan generalizing c adjusted with
  | nil => rfl
  | cons entry plan ih =>
    rw [applyPlan_cons]
    by_cases h : c.capReached adjusted
    · rw [if_pos h]; exact ih c adjusted
    · rw [if_neg h]
      dsimp only
      rw [ih, tryEntry_engine, List.filterMap_append, List.foldl_append]

/-- the outcome reported for a VM in a tick -/
def tickOutcome (c : Controller E) (env : TickEnv) (id : VmId) : Option AppliedOutcome :=
  ((c.tick env).2.1.filterMap reported).lookup id

/-- the report of an attempt that a tick made -/
theorem tryEntry_report {env : TickEnv} {x : Controller E × PlanEntry} {i : Instance} {t : ℕ}
    (hi : x.1.instances x.2.instanceId = some i) (ht : x.2.action.target = some t) :
    (x.1.tryEntry env.attempt x.2).2.1.filterMap reported =
      [(x.2.instanceId, x.1.attemptOutcome (env.attempt x.2.instanceId) i x.2.action t)] := by
  unfold tryEntry
  rw [applyEngineDecision_eq x.1 _ hi ht]
  generalize x.1.attemptOutcome (env.attempt x.2.instanceId) i x.2.action t = o
  cases o <;> rfl

/-- every report of a tick belongs to an attempt, and no VM has two -/
theorem tickReports_map (c : Controller E) (env : TickEnv) :
    ((c.tick env).2.1.filterMap reported).map Prod.fst = (c.tickAttempts env).map fun x => x.2.instanceId := by
  rw [tick_reports]
  have hall : ∀ x ∈ c.tickAttempts env, ((x.1.tryEntry env.attempt x.2).2.1.filterMap reported).map Prod.fst =
      [x.2.instanceId] := by
    intro x hx
    obtain ⟨-, -, i, t, -, hi, ht, -⟩ := tickAttempts_spec hx
    rw [tryEntry_report hi ht]
    rfl
  generalize c.tickAttempts env = l at hall
  induction l with
  | nil => rfl
  | cons x l ih =>
    rw [List.flatMap_cons, List.map_append, hall x List.mem_cons_self,
      ih fun y hy => hall y (List.mem_cons_of_mem _ hy)]
    rfl

theorem attempts_sublist (c : Controller E) (attempt : VmId → AttemptEnv) (adjusted : ℕ) (plan : List PlanEntry) :
    ((c.attempts attempt adjusted plan).map Prod.snd).Sublist plan := by
  induction plan generalizing c adjusted with
  | nil => exact List.Sublist.slnil
  | cons entry plan ih =>
    rw [attempts]
    split_ifs with h
    · exact (ih c adjusted).cons _
    · exact (ih _ _).cons_cons _

theorem tickReports_nodup (c : Controller E) (env : TickEnv) :
    (((c.tick env).2.1.filterMap reported).map Prod.fst).Nodup := by
  rw [tickReports_map]
  cases h : (c.prepareTick env).2.2 with
  | error e =>
    rw [tickAttempts_error h]
    exact List.nodup_nil
  | ok u =>
    rw [tickAttempts_ok h]
    have hsub := (attempts_sublist (c.decidedTick env).1 env.attempt 0 (c.decidedTick env).2).map PlanEntry.instanceId
    rw [List.map_map] at hsub
    exact hsub.nodup (planOf_nodup _ _)

/-- an outcome depends on the configuration, the host load and the record only -/
theorem attemptOutcome_apart {c c' : Controller E} (h : Apart c c') (env : AttemptEnv) (i : Instance)
    (action : ScaleAction) (t : ℕ) : c'.attemptOutcome env i action t = c.attemptOutcome env i action t := by
  unfold attemptOutcome guard
  rw [h.cfg, h.hostCpuUtil]

theorem tickAttempts_apart {c : Controller E} {env : TickEnv} {x : Controller E × PlanEntry}
    (hx : x ∈ c.tickAttempts env) : Apart (c.decidedTick env).1 x.1 :=
  (attempts_inv (mem_tickAttempts hx)).2

/-- the outcome that an attempt on a VM would report in a tick -/
def wouldReport (c : Controller E) (env : TickEnv) (i : Instance) (action : ScaleAction) (t : ℕ) : AppliedOutcome :=
  (c.decidedTick env).1.attemptOutcome (env.attempt i.id) i action t

/-- an attempt of a tick is what decides the outcome of its VM -/
theorem tickOutcome_of_attempt {c : Controller E} (hk : c.Keyed) {env : TickEnv} {x : Controller E × PlanEntry}
    (hx : x ∈ c.tickAttempts env) :
    ∃ i t, c.refreshedRecord env x.2.instanceId = some i ∧ x.2.action.target = some t ∧ t ≠ i.status.threadCount ∧
      c.tickOutcome env x.2.instanceId = some (c.wouldReport env i x.2.action t) := by
  obtain ⟨-, -, i, t, hrec, hi, ht, hne⟩ := tickAttempts_spec hx
  refine ⟨i, t, hrec, ht, hne, ?_⟩
  have hid : i.id = x.2.instanceId := refreshedRecord_id hk hrec
  have hmem : (x.2.instanceId, c.wouldReport env i x.2.action t) ∈ (c.tick env).2.1.filterMap reported := by
    rw [tick_reports]
    refine List.mem_flatMap.2 ⟨x, hx, ?_⟩
    rw [tryEntry_report hi ht, attemptOutcome_apart (tickAttempts_apart hx)]
    unfold wouldReport
    rw [hid]
    exact List.mem_singleton_self _
  unfold tickOutcome
  have hn := tickReports_nodup c env
  generalize (c.tick env).2.1.filterMap reported = reports at hmem hn
  induction reports with
  | nil => simp at hmem
  | cons r reports ih =>
    obtain ⟨vm, o⟩ := r
    rw [List.map_cons, List.nodup_cons] at hn
    rcases List.mem_cons.1 hmem with heq | hmem
    · cases heq
      simp
    · have hother : (x.2.instanceId == vm) = false :=
        beq_eq_false_iff_ne.mpr fun heq => hn.1 (List.mem_map.2 ⟨_, hmem, heq⟩)
      rw [List.lookup_cons, hother]
      exact ih hmem hn.2

/-- an outcome of a tick comes from an attempt -/
theorem attempt_of_tickOutcome {c : Controller E} {env : TickEnv} {id : VmId} {o : AppliedOutcome}
    (h : c.tickOutcome env id = some o) : ∃ x ∈ c.tickAttempts env, x.2.instanceId = id := by
  obtain ⟨l1, l2, hl, -⟩ := List.lookup_eq_some_iff.1 h
  have hmem : id ∈ (c.tickAttempts env).map fun x => x.2.instanceId := by
    rw [← tickReports_map, hl]
    simp
  obtain ⟨x, hx, hid⟩ := List.mem_map.1 hmem
  exact ⟨x, hx, hid⟩

theorem tickOutcome_eq_none {c : Controller E} {env : TickEnv} {id : VmId}
    (h : ∀ x ∈ c.tickAttempts env, x.2.instanceId ≠ id) : c.tickOutcome env id = none := by
  cases hout : c.tickOutcome env id with
  | none => rfl
  | some o =>
    obtain ⟨x, hx, hid⟩ := attempt_of_tickOutcome hout
    exact absurd hid (h x hx)

/-- the record that a plan leaves is the one that its VM's attempt leaves -/
theorem applyPlan_record (c : Controller E) (attempt : VmId → AttemptEnv) (adjusted : ℕ) {plan : List PlanEntry}
    (hn : (plan.map PlanEntry.instanceId).Nodup) (id : VmId) :
    (c.applyPlan attempt adjusted plan).1.instances id =
      match (c.attempts attempt adjusted plan).find? fun x => x.2.instanceId = id with
      | none => c.instances id
      | some x => (x.1.tryEntry attempt x.2).1.instances id := by
  induction plan generalizing c adjusted with
  | nil => rfl
  | cons entry plan ih =>
    rw [List.map_cons, List.nodup_cons] at hn
    rw [applyPlan_cons, attempts]
    by_cases h : c.capReached adjusted
    · rw [if_pos h, if_pos h]
      exact ih c adjusted hn.2
    · rw [if_neg h, if_neg h]
      dsimp only
      rw [ih _ _ hn.2]
      by_cases hid : entry.instanceId = id
      · subst hid
        have hnone : ((c.tryEntry attempt entry).1.attempts attempt
            (countApplied adjusted (c.tryEntry attempt entry).2.2) plan).find?
              (fun x => x.2.instanceId = entry.instanceId) = none := by
          rw [List.find?_eq_none]
          intro x hx heq
          have heq : x.2.instanceId = entry.instanceId := by simpa using heq
          exact hn.1 (heq ▸ List.mem_map_of_mem (attempts_inv hx).1)
        simp [hnone]
      · rw [List.find?_cons_of_neg (by simpa using hid), tryEntry_other c attempt entry fun heq => hid heq.symm]

/-- an outcome leaves what the configuration says -/
theorem attemptStatus_cfg {c c' : Controller E} (h : c'.cfg = c.cfg) (env : AttemptEnv) (status : InstanceStatus) (t : ℕ)
    (o : AppliedOutcome) : c'.attemptStatus env status t o = c.attemptStatus env status t o := by
  cases o <;> simp only [attemptStatus, h]

/-- the status that the outcome of a tick leaves for a VM; a VM without an outcome keeps its own -/
def outcomeStatus (c : Controller E) (env : AttemptEnv) (status : InstanceStatus) : Option AppliedOutcome → InstanceStatus
  | some o => c.attemptStatus env status (o.action.target.getD status.threadCount) o
  | none => status

/-- what an attempt of a tick leaves of the record of its VM -/
theorem tryEntry_record {c : Controller E} (hk : c.Keyed) {env : TickEnv} {x : Controller E × PlanEntry}
    (hx : x ∈ c.tickAttempts env) {i : Instance} (hrec : c.refreshedRecord env x.2.instanceId = some i) :
    (x.1.tryEntry env.attempt x.2).1.instances x.2.instanceId = some { i with
      status := c.outcomeStatus (env.attempt x.2.instanceId) i.status (c.tickOutcome env x.2.instanceId) } := by
  obtain ⟨hcfg, -, j, t, hj, hxj, ht, -⟩ := tickAttempts_spec hx
  obtain ⟨k, t', hk', ht', -, hout⟩ := tickOutcome_of_attempt hk hx
  obtain rfl : j = i := Option.some.inj (hj.symm.trans hrec)
  obtain rfl : k = j := Option.some.inj (hk'.symm.trans hrec)
  obtain rfl : t' = t := Option.some.inj (ht'.symm.trans ht)
  have hreport : c.wouldReport env k x.2.action t' =
      (c.decidedTick env).1.attemptOutcome (env.attempt x.2.instanceId) k x.2.action t' := by
    unfold wouldReport
    rw [refreshedRecord_id hk hrec]
  rw [hout, hreport]
  unfold tryEntry
  rw [applyEngineDecision_eq x.1 _ hxj ht, attemptOutcome_apart (tickAttempts_apart hx)]
  have hact := (c.decidedTick env).1.attemptOutcome_action (env.attempt x.2.instanceId) k x.2.action t'
  generalize (c.decidedTick env).1.attemptOutcome (env.attempt x.2.instanceId) k x.2.action t' = o at hact ⊢
  have htarget : o.action.target.getD k.status.threadCount = t' := by rw [hact, ht]; rfl
  have hstatus : x.1.attemptStatus (env.attempt x.2.instanceId) k.status t' o =
      c.outcomeStatus (env.attempt x.2.instanceId) k.status (some o) := by
    rw [attemptStatus_cfg hcfg, ← htarget]
    rfl
  simp only [afterAttempt, report, putStatus, Function.update_self, hstatus]

/-- after a tick the record of a VM is the refreshed one, with what the outcome of its attempt leaves -/
theorem tick_record {c : Controller E} (hk : c.Keyed) {env : TickEnv} {id : VmId} {i : Instance}
    (hrec : c.refreshedRecord env id = some i) :
    (c.tick env).1.instances id =
      some { i with status := c.outcomeStatus (env.attempt id) i.status (c.tickOutcome env id) } := by
  cases hprep : (c.prepareTick env).2.2 with
  | error e =>
    have hidle : c.tickOutcome env id = none := by
      apply tickOutcome_eq_none
      rw [tickAttempts_error hprep]
      simp
    rw [tick_error hprep, prepareTick_instances, hrec, hidle]
    rfl
  | ok u =>
    have hnodup : ((c.decidedTick env).2.map PlanEntry.instanceId).Nodup := planOf_nodup _ _
    have hplan := applyPlan_record (c.decidedTick env).1 env.attempt 0 hnodup id
    rw [← tickAttempts_ok hprep] at hplan
    rw [tick_ok hprep]
    dsimp only
    rw [hplan]
    cases hfind : (c.tickAttempts env).find? fun x => x.2.instanceId = id with
    | none =>
      have hall := List.find?_eq_none.1 hfind
      rw [tickOutcome_eq_none fun x hx => by simpa using hall x hx]
      dsimp only
      rw [decidedTick_instances, hrec]
      rfl
    | some x =>
      have hx := List.mem_of_find?_eq_some hfind
      obtain rfl : x.2.instanceId = id := by simpa using List.find?_some hfind
      exact tryEntry_record hk hx hrec

/-- after a tick the recorded count of a VM is the refreshed one, or the target of its successful action -/
theorem tick_threadCount {c : Controller E} (hk : c.Keyed) {env : TickEnv} {id : VmId} {i : Instance}
    (hrec : c.refreshedRecord env id = some i) :
    ∃ i', (c.tick env).1.instances id = some i' ∧ i'.status.threadCount =
      match c.tickOutcome env id with
      | some (.success action _ _ _) => action.target.getD i.status.threadCount
      | _ => i.status.threadCount := by
  refine ⟨_, tick_record hk hrec, ?_⟩
  rcases c.tickOutcome env id with _ | o
  · rfl
  · cases o <;> rfl

end Reports

/-! ## The threshold engine in a tick -/

def engineState (c : Controller (thresholdEngine T)) : VmId → Option InstanceState := c.engine

/-- the state that an evaluation of a VM starts from -/
def stateOf (c : Controller (thresholdEngine T)) (id : VmId) : InstanceState := (c.engineState id).getD .new

/-- the context of a tick's evaluations -/
def contextOf (c : Controller (thresholdEngine T)) (env : TickEnv) : EngineTickContext :=
  (c.prepareTick env).1.tickContext env.now

/-- what a tick computes for one VM: its new state and decision, `none` when the VM is not evaluated -/
def evaluation (c : Controller (thresholdEngine T)) (env : TickEnv) (id : VmId) :
    Option (InstanceState × ScaleAction) :=
  match c.refreshedRecord env id with
  | none => none
  | some i => if i.skipped then none else some (T.evaluateInstance (c.stateOf id) i.status (c.contextOf env))

variable {c : Controller (thresholdEngine T)} {env : TickEnv} {id : VmId}

theorem stateOf_congr {c' : Controller (thresholdEngine T)} (h : c'.engineState id = c.engineState id) :
    c'.stateOf id = c.stateOf id := by
  unfold stateOf
  rw [h]

theorem stateOf_some {s : InstanceState} (h : c.engineState id = some s) : c.stateOf id = s := by
  unfold stateOf
  rw [h]
  rfl

theorem stateOf_none (h : c.engineState id = none) : c.stateOf id = .new := by
  unfold stateOf
  rw [h]
  rfl

theorem evaluation_some {r : InstanceState × ScaleAction} (h : c.evaluation env id = some r) :
    ∃ i, c.refreshedRecord env id = some i ∧ i.skipped = false ∧
      r = T.evaluateInstance (c.stateOf id) i.status (c.contextOf env) := by
  unfold evaluation at h
  cases hr : c.refreshedRecord env id with
  | none => rw [hr] at h; simp at h
  | some i =>
    rw [hr] at h
    dsimp only at h
    split_ifs at h with hs
    exact ⟨i, rfl, by simpa using hs, (Option.some.inj h).symm⟩

theorem evaluation_of {i : Instance} (hr : c.refreshedRecord env id = some i) (hs : i.skipped = false) :
    c.evaluation env id = some (T.evaluateInstance (c.stateOf id) i.status (c.contextOf env)) := by
  simp [evaluation, hr, hs]

/-- a failed refresh removes the state of its VM, and nothing else is removed -/
theorem prepared_state (hk : c.Keyed) (ho : Enumerates env.order c.instances) :
    (c.prepareTick env).1.engineState id =
      if (c.instances id).isSome = true ∧ c.refreshedRecord env id = none then none else c.engineState id := by
  have hfailed : id ∈ ((c.fleet env.order).filter fun i => ! (c.refreshOne env i).2).map Instance.id ↔
      (c.instances id).isSome = true ∧ c.refreshedRecord env id = none := by
    simp only [List.mem_map, List.mem_filter, fleet, List.mem_filterMap]
    constructor
    · intro hmem
      obtain ⟨i, ⟨⟨k, -, hi⟩, hf⟩, hid⟩ := hmem
      have hkey : k = id := (hk k i hi).symm.trans hid
      subst hkey
      refine ⟨by rw [hi]; rfl, ?_⟩
      have hfalse : (c.refreshOne env i).2 = false := by simpa using hf
      simp [refreshedRecord, hi, hfalse]
    · intro hgone
      obtain ⟨hsome, hnone⟩ := hgone
      obtain ⟨i, hi⟩ := Option.isSome_iff_exists.1 hsome
      refine ⟨i, ⟨⟨id, (ho.2 id).2 hsome, hi⟩, ?_⟩, hk id i hi⟩
      by_contra htrue
      have htrue : (c.refreshOne env i).2 = true := by simpa using htrue
      simp [refreshedRecord, hi, htrue] at hnone
  have hengine := prepareTick_engine c env
  have hfold := ThresholdEngine.foldl_removed c.engineState
    ((c.fleet env.order).filter fun i => ! (c.refreshOne env i).2) id
  simp only [hfailed] at hfold
  rw [← hfold]
  exact congrFun hengine id

theorem prepared_state_refreshed (hk : c.Keyed) (ho : Enumerates env.order c.instances) {i : Instance}
    (hr : c.refreshedRecord env id = some i) : (c.prepareTick env).1.engineState id = c.engineState id := by
  rw [prepared_state hk ho, if_neg]
  rintro ⟨-, hnone⟩
  rw [hr] at hnone
  simp at hnone

theorem fleet_ids_sublist {E : ScalingEngine} {c : Controller E} (hk : c.Keyed) (order : List VmId) :
    ((c.fleet order).map Instance.id).Sublist order := by
  induction order with
  | nil => exact List.Sublist.slnil
  | cons id order ih =>
    unfold fleet at ih ⊢
    cases hi : c.instances id with
    | none => rw [List.filterMap_cons_none hi]; exact ih.cons _
    | some i =>
      rw [List.filterMap_cons_some hi, List.map_cons, hk id i hi]
      exact ih.cons_cons _

theorem prepared_keyed (hk : c.Keyed) : (c.prepareTick env).1.Keyed := by
  intro id i hi
  rw [prepareTick_instances] at hi
  exact refreshedRecord_id hk hi

theorem prepared_fleet_nodup (hk : c.Keyed) (ho : Enumerates env.order c.instances) :
    (((c.prepareTick env).1.fleet env.order).map Instance.id).Nodup :=
  (fleet_ids_sublist (prepared_keyed hk) env.order).nodup ho.1

/-- the fleet of a prepared tick is the refreshed records -/
theorem mem_prepared_fleet (hk : c.Keyed) (ho : Enumerates env.order c.instances) {i : Instance} :
    i ∈ (c.prepareTick env).1.fleet env.order ↔ c.refreshedRecord env i.id = some i := by
  unfold fleet
  rw [prepareTick_instances, List.mem_filterMap]
  constructor
  · intro hmem
    obtain ⟨id, -, hi⟩ := hmem
    have hid : i.id = id := refreshedRecord_id hk hi
    rw [hid]
    exact hi
  · intro hi
    exact ⟨i.id, refreshedRecord_mem ho hi, hi⟩

/-- the decisions of a tick are its evaluations -/
theorem mem_decisions (hk : c.Keyed) (ho : Enumerates env.order c.instances) {d : InstanceDecision} :
    d ∈ ((c.prepareTick env).1.decideFleet env).2 ↔
      ∃ r, c.evaluation env d.instanceId = some r ∧ d.decision = r.2 := by
  have hdec : ((c.prepareTick env).1.decideFleet env).2 = _ :=
    ThresholdEngine.evaluateFleet_decisions (T := T) (c.prepareTick env).1.engineState (c.contextOf env)
      (prepared_fleet_nodup hk ho)
  rw [hdec]
  simp only [List.mem_map, List.mem_filter, Bool.not_eq_true']
  constructor
  · intro hmem
    obtain ⟨i, ⟨hi, hs⟩, rfl⟩ := hmem
    have hr := (mem_prepared_fleet hk ho).1 hi
    refine ⟨_, evaluation_of hr hs, ?_⟩
    rw [prepared_state_refreshed hk ho hr]
    rfl
  · intro heval
    obtain ⟨r, hr, hd⟩ := heval
    obtain ⟨i, hrec, hs, rfl⟩ := evaluation_some hr
    have hid : i.id = d.instanceId := refreshedRecord_id hk hrec
    refine ⟨i, ⟨(mem_prepared_fleet hk ho).2 (hid ▸ hrec), hs⟩, ?_⟩
    rw [prepared_state_refreshed hk ho (hid ▸ hrec), hid]
    cases d
    simp only at hd
    rw [hd]
    rfl

/-- the state of a VM when the engine has decided -/
theorem decided_state (id : VmId) (hk : c.Keyed) (ho : Enumerates env.order c.instances) :
    (c.decidedTick env).1.engineState id =
      match c.evaluation env id with
      | some r => some r.1
      | none => (c.prepareTick env).1.engineState id := by
  cases he : c.evaluation env id with
  | some r =>
    obtain ⟨i, hrec, hs, rfl⟩ := evaluation_some he
    have hid : i.id = id := refreshedRecord_id hk hrec
    have hst := ThresholdEngine.evaluateFleet_state (T := T) (c.prepareTick env).1.engineState (c.contextOf env)
      (prepared_fleet_nodup hk ho) ((mem_prepared_fleet hk ho).2 (hid ▸ hrec)) hs
    rw [prepared_state_refreshed hk ho (hid ▸ hrec), hid] at hst
    exact hst
  | none =>
    refine ThresholdEngine.evaluateFleet_other (c.prepareTick env).1.engineState (c.contextOf env) ?_
    intro i hi hid
    by_contra hs
    have hrec := (mem_prepared_fleet hk ho).1 hi
    rw [hid] at hrec
    rw [evaluation_of hrec (by simpa using hs)] at he
    simp at he

/-- the state of a VM after a tick: its outcome, if there was one, is applied to what the evaluation left -/
theorem tick_state (id : VmId) (hok : (c.tick env).2.2 = .ok ()) :
    (c.tick env).1.engineState id =
      match c.tickOutcome env id with
      | none => (c.decidedTick env).1.engineState id
      | some o => ((c.decidedTick env).1.engineState id).map fun s => T.applyOutcome s o := by
  have hprep : (c.prepareTick env).2.2 = .ok () := by rw [← tick_result]; exact hok
  have hquiet : (c.prepareTick env).2.1.filterMap reported = [] :=
    List.filterMap_eq_nil_iff.2 fun e he => (prepareTick_quiet c env e he).2
  have hreports : (c.tick env).2.1.filterMap reported =
      ((c.decidedTick env).1.applyPlan env.attempt 0 (c.decidedTick env).2).2.filterMap reported := by
    rw [tick_ok hprep, List.filterMap_append, hquiet, List.nil_append]
  have hengine : (c.tick env).1.engine =
      ((c.tick env).2.1.filterMap reported).foldl (fun st r => T.onApplied st r.1 r.2)
        (c.decidedTick env).1.engineState := by
    rw [hreports, tick_ok hprep]
    exact applyPlan_engine _ _ _ _
  have hfold := ThresholdEngine.foldl_onApplied (T := T) (c.decidedTick env).1.engineState (tickReports_nodup c env) id
  unfold tickOutcome
  rw [← hfold]
  exact congrFun hengine id

/-- an outcome belongs to an evaluation that asked for another count, and is what the attempt on it reports -/
theorem tickOutcome_some (hk : c.Keyed) (ho : Enumerates env.order c.instances) {o : AppliedOutcome}
    (h : c.tickOutcome env id = some o) :
    ∃ i r t, c.refreshedRecord env id = some i ∧ c.evaluation env id = some r ∧ r.2.target = some t ∧
      t ≠ i.status.threadCount ∧ o = c.wouldReport env i r.2 t := by
  obtain ⟨x, hx, rfl⟩ := attempt_of_tickOutcome h
  obtain ⟨-, hdec, -⟩ := tickAttempts_spec hx
  obtain ⟨r, hr, hact⟩ := (mem_decisions hk ho).1 hdec
  obtain ⟨i, t, hrec, ht, hne, hout⟩ := tickOutcome_of_attempt hk hx
  rw [h] at hout
  refine ⟨i, r, t, hrec, hr, ?_, hne, ?_⟩
  · rw [← hact]; exact ht
  · rw [← hact]; exact Option.some.inj hout

theorem attemptOutcome_eq {E : ScalingEngine} (c : Controller E) (env : AttemptEnv) (i : Instance)
    (action : ScaleAction) (t : ℕ) :
    (∃ at', c.attemptOutcome env i action t = .success action i.status.threadCount (ioTotal i.status.perf) at' ∧
      c.cfg.dryRun = false) ∨
    (∃ at', c.attemptOutcome env i action t = .dryRun action i.status.threadCount (ioTotal i.status.perf) at' ∧
      c.cfg.dryRun = true) ∨
    (c.attemptOutcome env i action t).isApplied = false := by
  unfold attemptOutcome
  cases c.guard i.status action t env.checkedAt with
  | some reason => exact Or.inr (Or.inr rfl)
  | none =>
    cases hd : c.cfg.dryRun with
    | true => exact Or.inr (Or.inl ⟨_, rfl, rfl⟩)
    | false =>
      cases env.backend with
      | ok u => exact Or.inl ⟨_, rfl, rfl⟩
      | error e => exact Or.inr (Or.inr rfl)

/-- a tick drives the state of an evaluated VM by one poll -/
theorem tick_drives (hk : c.Keyed) (ho : Enumerates env.order c.instances) (hok : (c.tick env).2.2 = .ok ())
    {r : InstanceState × ScaleAction} (hr : c.evaluation env id = some r) {i : Instance}
    (hrec : c.refreshedRecord env id = some i) :
    ∃ appliedAt, (c.tick env).1.engineState id =
        some (T.driveStep (c.stateOf id) ⟨i.status, c.contextOf env, appliedAt⟩) ∧
      (appliedAt.isSome = true ↔ ∃ o, c.tickOutcome env id = some o ∧ o.isApplied = true) := by
  have hst := tick_state id hok
  have hdec := decided_state id hk ho
  rw [hr] at hdec
  obtain ⟨j, hj, -, rfl⟩ := evaluation_some hr
  have hij : j = i := Option.some.inj (hj.symm.trans hrec)
  subst hij
  rw [hdec] at hst
  cases hout : c.tickOutcome env id with
  | none =>
    rw [hout] at hst
    refine ⟨none, hst, ?_⟩
    simp
  | some o =>
    rw [hout] at hst
    obtain ⟨k, r', t, hk', hr', ht, hne, rfl⟩ := tickOutcome_some hk ho hout
    have hkj : k = j := Option.some.inj (hk'.symm.trans hrec)
    subst hkj
    have hrr : r' = T.evaluateInstance (c.stateOf id) k.status (c.contextOf env) :=
      Option.some.inj (hr'.symm.trans hr)
    subst hrr
    rcases attemptOutcome_eq (c.decidedTick env).1 (env.attempt k.id) k
        (T.evaluateInstance (c.stateOf id) k.status (c.contextOf env)).2 t with ⟨at', he, -⟩ | ⟨at', he, -⟩ | hf
    · refine ⟨some at', ?_, ?_⟩
      · rw [hst]
        unfold wouldReport
        rw [he]
        rfl
      · simp [wouldReport, he, AppliedOutcome.isApplied]
    · refine ⟨some at', ?_, ?_⟩
      · rw [hst]
        unfold wouldReport
        rw [he]
        rfl
      · simp [wouldReport, he, AppliedOutcome.isApplied]
    · refine ⟨none, ?_, ?_⟩
      · rw [hst]
        change some (T.applyOutcome _ _) = some _
        unfold wouldReport
        rw [ThresholdEngine.applyOutcome_unapplied _ hf]
        rfl
      · simp [wouldReport, hf]

/-! ## Other events -/

theorem addDiscovered_state (c : Controller (thresholdEngine T)) (ds : List Discovered) (id : VmId) :
    (c.addDiscovered ds).1.engineState id = c.engineState id ∨
      c.instances id = none ∧ (c.addDiscovered ds).1.engineState id = some (c.stateOf id) ∧
        (c.addDiscovered ds).1.instances id ≠ none := by
  induction ds generalizing c with
  | nil => exact Or.inl rfl
  | cons d ds ih =>
    cases h : c.instances d.id with
    | some i => rw [addDiscovered_known ds h]; exact ih c
    | none =>
      rw [addDiscovered_unknown ds h]
      dsimp only
      have hstate : ∀ x, (c.addFresh d).engineState x =
          if x = d.id then some (c.stateOf d.id) else c.engineState x := by
        intro x
        by_cases hx : x = d.id
        · subst hx; rw [if_pos rfl]; exact Function.update_self _ _ _
        · rw [if_neg hx]; exact Function.update_of_ne hx _ _
      by_cases hid : id = d.id
      · subst hid
        have htracked : (c.addFresh d).instances d.id = some (c.freshRecord d) := Function.update_self _ _ _
        rcases ih (c.addFresh d) with hs | ⟨hn, -, -⟩
        · refine Or.inr ⟨h, ?_, ?_⟩
          · rw [hs, hstate, if_pos rfl]
          · rw [addDiscovered_instances, htracked]; exact nofun
        · rw [htracked] at hn; simp at hn
      · have hsame : (c.addFresh d).instances id = c.instances id := Function.update_of_ne hid _ _
        have hst : (c.addFresh d).engineState id = c.engineState id := by rw [hstate, if_neg hid]
        rcases ih (c.addFresh d) with hs | ⟨hn, hs, ht⟩
        · exact Or.inl (hs.trans hst)
        · refine Or.inr ⟨hsame ▸ hn, ?_, ht⟩
          rw [hs, stateOf_congr hst]

theorem removeStale_state (c : Controller (thresholdEngine T)) (ids : List VmId) (id : VmId) :
    (c.removeStale ids).1.engineState id =
      if id ∈ ids ∧ (c.instances id).isSome = true then none else c.engineState id :=
  removeStale_at (fun _ => Function.update_self _ _ _) (fun hx => Function.update_of_ne hx _ _) c ids id

/-- the engine holds no state of an untracked VM -/
def Sourced (c : Controller (thresholdEngine T)) : Prop := ∀ id, c.instances id = none → c.engineState id = none

/-- a sync keeps the engine state of a VM, or gives it a fresh one, or removes it with its record -/
theorem sync_state (id : VmId) (hs : c.Sourced) (ds : List Discovered) (order : List VmId) :
    (c.syncInstances ds order).1.engineState id = c.engineState id ∨
    (c.instances id = none ∧ (c.syncInstances ds order).1.engineState id = some .new) ∨
    (c.syncInstances ds order).1.engineState id = none := by
  have hsync : (c.syncInstances ds order).1.engineState id = _ :=
    removeStale_state (c.addDiscovered ds).1 (order.filter fun id => id ∉ ds.map Discovered.id) id
  rw [hsync]
  split_ifs with hstale
  · exact Or.inr (Or.inr rfl)
  · rcases addDiscovered_state c ds id with h | ⟨hn, h, -⟩
    · exact Or.inl h
    · refine Or.inr (Or.inl ⟨hn, ?_⟩)
      rw [h, stateOf_none (hs id hn)]

theorem addDiscovered_sourced (hs : c.Sourced) (ds : List Discovered) : (c.addDiscovered ds).1.Sourced := by
  intro id hnone
  rcases addDiscovered_state c ds id with h | ⟨-, -, ht⟩
  · rw [h]
    refine hs id ?_
    rw [addDiscovered_instances] at hnone
    cases hc : c.instances id with
    | none => rfl
    | some i => rw [hc] at hnone; simp at hnone
  · exact absurd hnone ht

theorem sync_sourced (hs : c.Sourced) (ds : List Discovered) (order : List VmId) :
    (c.syncInstances ds order).1.Sourced := by
  intro id hnone
  have hsync : (c.syncInstances ds order).1.engineState id = _ :=
    removeStale_state (c.addDiscovered ds).1 (order.filter fun id => id ∉ ds.map Discovered.id) id
  have hinst : (c.syncInstances ds order).1.instances id = _ :=
    removeStale_instances (c.addDiscovered ds).1 (order.filter fun id => id ∉ ds.map Discovered.id) id
  rw [hinst] at hnone
  rw [hsync]
  by_cases hstale : id ∈ order.filter fun id => id ∉ ds.map Discovered.id
  · by_cases hsome : ((c.addDiscovered ds).1.instances id).isSome = true
    · rw [if_pos ⟨hstale, hsome⟩]
    · rw [if_neg fun h => hsome h.2]
      exact addDiscovered_sourced hs ds id (by simpa using hsome)
  · rw [if_neg hstale] at hnone
    rw [if_neg fun h => hstale h.1]
    exact addDiscovered_sourced hs ds id hnone

/-- a VM that a tick does not evaluate keeps its engine state, or loses it with a failed refresh -/
theorem tick_state_skipped (hk : c.Keyed) (ho : Enumerates env.order c.instances) (hok : (c.tick env).2.2 = .ok ())
    (hn : c.evaluation env id = none) :
    (c.tick env).1.engineState id =
      if (c.instances id).isSome = true ∧ c.refreshedRecord env id = none then none else c.engineState id := by
  have hst := tick_state id hok
  have hdec := decided_state id hk ho
  rw [hn] at hdec
  cases hout : c.tickOutcome env id with
  | none =>
    rw [hout] at hst
    rw [hst, hdec]
    exact prepared_state hk ho
  | some o =>
    obtain ⟨i, r, t, -, hr, -⟩ := tickOutcome_some hk ho hout
    rw [hn] at hr
    simp at hr

theorem tick_sourced (hs : c.Sourced) (hk : c.Keyed) (ho : Enumerates env.order c.instances)
    (hok : (c.tick env).2.2 = .ok ()) : (c.tick env).1.Sourced := by
  intro id hnone
  have hrec : c.refreshedRecord env id = none := by
    rcases tick_instances c env id with ⟨h, -⟩ | ⟨i, n, u, -, h⟩
    · exact h
    · rw [hnone] at h; simp at h
  have heval : c.evaluation env id = none := by unfold evaluation; rw [hrec]
  rw [tick_state_skipped hk ho hok heval]
  split_ifs with h
  · rfl
  · refine hs id ?_
    cases hc : c.instances id with
    | none => rfl
    | some i => exact absurd ⟨by rw [hc]; rfl, hrec⟩ h

theorem handleSetThreadCount_state (c : Controller (thresholdEngine T)) (vm : VmId) (threads : ℕ) (sticky : Bool)
    (backend : Except BackendClientError Unit) :
    (c.handleSetThreadCount vm threads sticky backend).1.engineState = c.engineState ∧
      ∀ id, (c.handleSetThreadCount vm threads sticky backend).1.instances id = none ↔ c.instances id = none := by
  rcases c.handleSetThreadCount_spec vm threads sticky backend with ⟨h, -⟩ | ⟨i, hi, -, -, -, h, -⟩
  · rw [h]; exact ⟨rfl, fun _ => Iff.rfl⟩
  · rw [h]
    refine ⟨rfl, ?_⟩
    intro id
    by_cases hx : id = vm
    · subst hx; simp [putStatus, hi]
    · simp [putStatus, Function.update_of_ne hx]

theorem handleSetAllThreadCounts_state (c : Controller (thresholdEngine T)) (threads : ℕ) (sticky : Bool)
    (backend : VmId → Except BackendClientError Unit) (order : List VmId) :
    (c.handleSetAllThreadCounts threads sticky backend order).1.engineState = c.engineState ∧
      ∀ id, (c.handleSetAllThreadCounts threads sticky backend order).1.instances id = none ↔ c.instances id = none := by
  refine handleSetAllThreadCounts_preserves
    (fun c' => c'.engineState = c.engineState ∧ ∀ id, c'.instances id = none ↔ c.instances id = none)
    threads sticky backend (fun c' vm h => ?_) order ⟨rfl, fun _ => Iff.rfl⟩
  have hone := handleSetThreadCount_state c' vm threads sticky (backend vm)
  exact ⟨hone.1.trans h.1, fun id => (hone.2 id).trans (h.2 id)⟩

/-- a request does not reach the engine -/
theorem request_state {ev : Event} (hreq : ev.isRequest = true) (id : VmId) :
    (c.step ev).1.engineState id = c.engineState id := by
  cases ev with
  | tick env => cases hreq
  | sync ds order => cases hreq
  | setThreadCount vm threads sticky backend =>
    exact congrFun (handleSetThreadCount_state c vm threads sticky backend).1 id
  | setAllThreadCounts threads sticky backend order =>
    exact congrFun (handleSetAllThreadCounts_state c threads sticky backend order).1 id
  | query => rfl

theorem step_sourced (hs : c.Sourced) (hk : c.Keyed) {ev : Event} (ho : ev.Ordered c)
    (hok : (c.step ev).2.2 = .ok ()) : (c.step ev).1.Sourced := by
  cases ev with
  | tick env => exact tick_sourced hs hk ho hok
  | sync ds order => exact sync_sourced hs ds order
  | setThreadCount vm threads sticky backend =>
    obtain ⟨h1, h2⟩ := handleSetThreadCount_state c vm threads sticky backend
    intro id hn
    exact (congrFun h1 id).trans (hs id ((h2 id).1 hn))
  | setAllThreadCounts threads sticky backend order =>
    obtain ⟨h1, h2⟩ := handleSetAllThreadCounts_state c threads sticky backend order
    intro id hn
    exact (congrFun h1 id).trans (hs id ((h2 id).1 hn))
  | query => exact hs

/-- the event does not evaluate the VM -/
def Spares (c : Controller (thresholdEngine T)) (ev : Event) (id : VmId) : Prop :=
  ∀ env, ev = .tick env → c.evaluation env id = none

/-- an event that does not evaluate a VM keeps its engine state or forgets it -/
theorem step_spares (hs : c.Sourced) (hk : c.Keyed) {ev : Event} (ho : ev.Ordered c) (hok : (c.step ev).2.2 = .ok ())
    {id : VmId} (hev : c.Spares ev id) :
    (c.step ev).1.stateOf id = c.stateOf id ∨ (c.step ev).1.stateOf id = .new := by
  cases ev using Event.requestCases with
  | tick env =>
    have hst := tick_state_skipped hk ho hok (hev env rfl)
    split_ifs at hst with hgone
    · exact Or.inr (stateOf_none hst)
    · exact Or.inl (stateOf_congr hst)
  | sync ds order =>
    rcases sync_state id hs ds order with hst | ⟨-, hst⟩ | hst
    · exact Or.inl (stateOf_congr hst)
    · exact Or.inr (stateOf_some hst)
    · exact Or.inr (stateOf_none hst)
  | request ev hreq => exact Or.inl (stateOf_congr (request_state hreq id))

theorem sync_spares (c : Controller (thresholdEngine T)) (ds : List Discovered) (order : List VmId) (id : VmId) :
    c.Spares (.sync ds order) id := fun _ h => by cases h

/-- every event acts on the engine state of every VM as at most one driven event -/
theorem step_refines (hs : c.Sourced) (hk : c.Keyed) {ev : Event} (ho : ev.Ordered c) (hok : (c.step ev).2.2 = .ok ())
    (id : VmId) : ∃ ds, (c.step ev).1.stateOf id = Core.run T.drive (c.stateOf id) ds := by
  by_cases hspared : c.Spares ev id
  · rcases step_spares hs hk ho hok hspared with h | h
    · exact ⟨[], h⟩
    · exact ⟨[.forget], h⟩
  · simp only [Spares, not_forall] at hspared
    obtain ⟨env, rfl, he⟩ := hspared
    obtain ⟨r, he⟩ := Option.ne_none_iff_exists'.1 he
    obtain ⟨i, hrec, -, -⟩ := evaluation_some he
    obtain ⟨appliedAt, hst, -⟩ := tick_drives hk ho hok he hrec
    exact ⟨[.poll ⟨i.status, c.contextOf env, appliedAt⟩], stateOf_some hst⟩

/-- the orders of an event of a running process are iteration orders of its inventory -/
def OrderedProc {E : ScalingEngine} (p : Option (Controller E)) (ev : Event) : Prop := ∀ c, p = some c → ev.Ordered c

theorem new_sourced (cfg : Config) (o : VmOwnership) :
    (Controller.new cfg (fun _ => none) o : Controller (thresholdEngine T)).Sourced := fun _ _ => rfl

/-- in every run of a process, the engine state of every VM is one that polls and removals can reach -/
theorem run_refines (cfg : Config) (o : VmOwnership) (es : List Event)
    (ho : Core.Along procStep OrderedProc (some (Controller.new cfg (fun _ => none) o : Controller (thresholdEngine T))) es)
    (hc : Core.run procStep (some (Controller.new cfg (fun _ => none) o)) es = some c) (id : VmId) :
    ∃ ds, c.stateOf id = Core.run T.drive .new ds := by
  have hinv := Core.run_inv
    (fun p : Option (Controller (thresholdEngine T)) => ∀ c, p = some c →
      c.Sourced ∧ c.Keyed ∧ ∀ id, ∃ ds, c.stateOf id = Core.run T.drive .new ds)
    (fun p ev hp hord c' hc' => ?_) (fun c' hc' => ?_) ho
  · exact (hinv c hc).2.2 id
  · cases p with
    | none => cases hc'
    | some c0 =>
      obtain ⟨hok, rfl⟩ := procStep_eq_some.1 hc'
      obtain ⟨hs, hk, hreach⟩ := hp c0 rfl
      refine ⟨step_sourced hs hk (hord c0 rfl) hok, step_keyed hk ev, ?_⟩
      intro x
      obtain ⟨ds, hds⟩ := hreach x
      obtain ⟨ds', hds'⟩ := step_refines hs hk (hord c0 rfl) hok x
      exact ⟨ds ++ ds', by rw [hds', hds, Core.run_append]⟩
  · obtain rfl := Option.some.inj hc'
    exact ⟨new_sourced cfg o, new_keyed cfg _ o, fun x => ⟨[], rfl⟩⟩

end Controller

end IoThreadController
