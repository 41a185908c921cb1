/-
The permission to scale a VM.

The permission is stored twice: as a field of the status, which `evaluate_fleet` consults and `GetStats` publishes, and as
a method over the ownership classification, which `apply_engine_decision` enforces.

- `evaluatedVms_eq`, `decisions_eq`: the default `evaluate_fleet` evaluates exactly the VMs that are neither sticky nor
  without the field, and decides for exactly these.
- `step_permission`: every event leaves the field set in every record, and a refreshed record classified.
- `one_notion_iff`: in every reachable state the permissions of a refreshed VM are one notion exactly when no operator
  manages the VM.
- `unmanaged_decided`: an operator-managed VM without a sticky override is evaluated, decided for and published as
  allowed, and only the guard of the attempt stops the action.
-/
import IoThreadController.Fleet.Requests

namespace IoThreadController

variable {E : ScalingEngine}

/-! ## What the default `evaluate_fleet` consults -/

section Evaluation

variable {σ : Type} (evaluate : σ → Instance → EngineTickContext → σ × ScaleAction) (st : σ)
  (context : EngineTickContext)

/-- an evaluation that also keeps a log of the VMs it was called for -/
def logged (st : σ × List VmId) (i : Instance) (context : EngineTickContext) : (σ × List VmId) × ScaleAction :=
  (((evaluate st.1 i context).1, st.2 ++ [i.id]), (evaluate st.1 i context).2)

/-- the VMs that the default `evaluate_fleet` evaluates -/
def evaluatedVms (fleet : List Instance) : List VmId :=
  (evaluateFleetDefault (logged evaluate) (st, []) context fleet).1.2

theorem evaluateFleetDefault_logged (log : List VmId) (fleet : List Instance) :
    evaluateFleetDefault (logged evaluate) (st, log) context fleet =
      (((evaluateFleetDefault evaluate st context fleet).1,
        log ++ (fleet.filter fun i => ! i.skipped).map Instance.id),
        (evaluateFleetDefault evaluate st context fleet).2) := by
  induction fleet generalizing st log with
  | nil => simp [evaluateFleetDefault]
  | cons i fleet ih =>
    have hskip : (i.status.manualScalingSticky = true ∨ ¬ i.status.scalingAllowed = true) ↔ i.skipped = true := by
      simp [Instance.skipped]
    by_cases h : i.skipped = true
    · rw [evaluateFleetDefault, evaluateFleetDefault, if_pos (hskip.2 h), if_pos (hskip.2 h), ih]
      simp [h]
    · rw [evaluateFleetDefault, evaluateFleetDefault, if_neg (mt hskip.1 h), if_neg (mt hskip.1 h)]
      simp [logged, ih, h]

theorem evaluatedVms_eq (fleet : List Instance) :
    evaluatedVms evaluate st context fleet = (fleet.filter fun i => ! i.skipped).map Instance.id := by
  rw [evaluatedVms, evaluateFleetDefault_logged]
  exact List.nil_append _

/-- the VMs that the default `evaluate_fleet` decides for -/
theorem decisions_eq (fleet : List Instance) :
    (evaluateFleetDefault evaluate st context fleet).2.map InstanceDecision.instanceId =
      (fleet.filter fun i => ! i.skipped).map Instance.id := by
  induction fleet generalizing st with
  | nil => rfl
  | cons i fleet ih =>
    have hskip : (i.status.manualScalingSticky = true ∨ ¬ i.status.scalingAllowed = true) ↔ i.skipped = true := by
      simp [Instance.skipped]
    by_cases h : i.skipped = true
    · rw [evaluateFleetDefault, if_pos (hskip.2 h), ih]
      simp [h]
    · rw [evaluateFleetDefault, if_neg (mt hskip.1 h)]
      simp [ih, h]

end Evaluation

/-! ## One notion -/

/-- the permission that is consulted, the one that is published and the one that is enforced are the classification, and an
operator-managed VM is neither evaluated nor decided for -/
structure OneNotion (c : Controller E) (id : VmId) (i : Instance) : Prop where
  consulted : i.status.scalingAllowed = true ↔ i.status.ownershipClassification = some true
  published : ∀ order, ∀ v ∈ (c.getStats order).2, v.vm = id →
    (v.scalingAllowed = true ↔ i.status.ownershipClassification = some true)
  enforced : i.status.scalingPermitted = true ↔ i.status.ownershipClassification = some true
  unmanaged : i.status.ownershipClassification = some false →
    ∀ (σ : Type) (evaluate : σ → Instance → EngineTickContext → σ × ScaleAction) (st : σ) (context : EngineTickContext)
      (order : List VmId), id ∉ evaluatedVms evaluate st context (c.fleet order) ∧
        ∀ d ∈ (evaluateFleetDefault evaluate st context (c.fleet order)).2, d.instanceId ≠ id

/-- the field is set, and a VM that was refreshed is classified -/
def Permission (i : Instance) : Prop :=
  i.status.scalingAllowed = true ∧ (i.status.alive = true → i.status.ownershipClassification.isSome = true)

theorem step_permission {c : Controller E} (h : ∀ id i, c.instances id = some i → Permission i) (ev : Event) :
    ∀ id i, (c.step ev).1.instances id = some i → Permission i := by
  apply Controller.step_records _ _ _ h
  · intro d
    exact ⟨rfl, fun halive => by cases halive⟩
  · intro id i refreshCgroup env snapshot hi
    refine ⟨?_, fun _ => ?_⟩
    · rw [applyThreadPoolSnapshot_scalingAllowed]
      exact hi.1
    · rw [applyThreadPoolSnapshot_classification]
      rfl
  · intro id i n u sticky hi
    exact hi

theorem run_permission (cfg : Config) (engine : E.State) (o : VmOwnership) (es : List Event) :
    ∀ c : Controller E, Core.run procStep (some (Controller.new cfg engine o)) es = some c →
      ∀ id i, c.instances id = some i → Permission i := by
  refine Core.run_inv (fun p : Option (Controller E) => ∀ c, p = some c → ∀ id i, c.instances id = some i → Permission i)
    ?_ ?_ (Core.along_true procStep _ es)
  · intro p ev hp _ c' hc'
    rcases p with _ | c
    · cases hc'
    · obtain ⟨-, rfl⟩ := procStep_eq_some.1 hc'
      exact step_permission (hp c rfl) ev
  · intro c hc id i hi
    cases hc
    cases hi

/-- the statistics of a VM are those of its record -/
theorem getStats_of_mem {c : Controller E} {order : List VmId} {v : VmStats} {i : Instance}
    (hi : c.instances v.vm = some i) (hv : v ∈ (c.getStats order).2) : v = vmStats v.vm i.status := by
  obtain ⟨id, -, hid⟩ := List.mem_filterMap.1 hv
  obtain ⟨j, hj, rfl⟩ := Option.map_eq_some_iff.1 hid
  have hij : j = i := Option.some.inj (hj.symm.trans hi)
  rw [hij]
  rfl

/-- in every reachable state, the permissions of a refreshed VM are one notion exactly when no operator manages the VM -/
theorem one_notion_iff (cfg : Config) (engine : E.State) (o : VmOwnership) (es : List Event) {c : Controller E}
    (hc : Core.run procStep (some (Controller.new cfg engine o)) es = some c) {id : VmId} {i : Instance}
    (hi : c.instances id = some i) (hrefreshed : i.status.alive = true) :
    OneNotion c id i ↔ i.status.ownershipClassification ≠ some false := by
  obtain ⟨hallowed, hclassified⟩ := run_permission cfg engine o es c hc id i hi
  constructor
  · intro h
    rw [h.consulted.1 hallowed]
    simp
  · intro hne
    have hmanaged : i.status.ownershipClassification = some true := by
      obtain ⟨managed, hsome⟩ := Option.isSome_iff_exists.1 (hclassified hrefreshed)
      rw [hsome] at hne ⊢
      simpa using hne
    refine ⟨iff_of_true hallowed hmanaged, ?_, ?_, ?_⟩
    · rintro order v hv rfl
      rw [getStats_of_mem hi hv]
      exact iff_of_true hallowed hmanaged
    · refine iff_of_true ?_ hmanaged
      rw [InstanceStatus.scalingPermitted, hmanaged]
      rfl
    · intro hunmanaged
      exact absurd hunmanaged hne

/-- an operator-managed VM without an override is evaluated and published as allowed; only the guard stops its action -/
theorem unmanaged_decided (cfg : Config) (engine : E.State) (o : VmOwnership) (es : List Event) {c : Controller E}
    (hc : Core.run procStep (some (Controller.new cfg engine o)) es = some c) {id : VmId} {i : Instance}
    (hi : c.instances id = some i) (hunmanaged : i.status.ownershipClassification = some false)
    (hsticky : i.status.manualScalingSticky = false) :
    (∀ (σ : Type) (evaluate : σ → Instance → EngineTickContext → σ × ScaleAction) (st : σ) (context : EngineTickContext)
      (order : List VmId), id ∈ order → i.id ∈ evaluatedVms evaluate st context (c.fleet order)) ∧
    (∀ order, id ∈ order → ∃ v ∈ (c.getStats order).2, v.vm = id ∧ v.scalingAllowed = true) ∧
    ∀ action target checkedAt, c.guard i.status action target checkedAt = some .unmanagedVm := by
  obtain ⟨hallowed, -⟩ := run_permission cfg engine o es c hc id i hi
  refine ⟨?_, ?_, ?_⟩
  · intro σ evaluate st context order hmem
    rw [evaluatedVms_eq]
    apply List.mem_map_of_mem
    rw [List.mem_filter]
    refine ⟨List.mem_filterMap.2 ⟨id, hmem, hi⟩, ?_⟩
    simp [Instance.skipped, hsticky, hallowed]
  · intro order hmem
    refine ⟨vmStats id i.status, ?_, rfl, hallowed⟩
    exact List.mem_filterMap.2 ⟨id, hmem, by rw [hi]; rfl⟩
  · intro action target checkedAt
    have hpermitted : i.status.scalingPermitted = false := by
      rw [InstanceStatus.scalingPermitted, hunmanaged]
      rfl
    simp [Controller.guard, hsticky, hpermitted]

/-- a VM that the registry knows as managed, through its discovery and a tick -/
theorem one_notion_managed :
    let E := thresholdEngine ThresholdEngine.standard
    ∃ (c : Controller E) (i : Instance), c.instances "vm" = some i ∧ OneNotion c "vm" i := by
  intro E
  let idle : ThreadPoolSnapshot := { threadCount := 2, vcpuCount := 8, perThreadUtil := some 0 }
  let events : List Event := [.sync [⟨"vm", 1⟩] ["vm"], .tick (.single "vm" 0 0 (.ok idle))]
  let process := Core.run procStep (some (Controller.new {} (fun _ => none) { managedVms := {"vm"} } : Controller E)) events
  have hrecord : (process.bind fun c => c.instances "vm").map
      (fun i => (i.status.alive, i.status.ownershipClassification)) = some (true, some true) := by decide +kernel
  obtain ⟨i, hi, hstatus⟩ := Option.map_eq_some_iff.1 hrecord
  obtain ⟨c, hc, hi⟩ := Option.bind_eq_some_iff.1 hi
  obtain ⟨halive, hmanaged⟩ := Prod.mk.inj hstatus
  exact ⟨c, i, hi, (one_notion_iff {} _ _ events hc hi halive).2 (by rw [hmanaged]; decide)⟩

/-- a VM that the registry knows as operator-managed is refreshed, published as allowed and evaluated -/
theorem operator_vm_evaluated :
    let E := thresholdEngine ThresholdEngine.standard
    ¬ ∀ (cfg : Config) (engine : E.State) (o : VmOwnership) (es : List Event) (c : Controller E),
      Core.run procStep (some (Controller.new cfg engine o)) es = some c →
      ∀ id i, c.instances id = some i → i.status.alive = true → OneNotion c id i := by
  intro E hevery
  let idle : ThreadPoolSnapshot := { threadCount := 2, vcpuCount := 8, perThreadUtil := some 0 }
  let events : List Event := [.sync [⟨"vm", 1⟩] ["vm"], .tick (.single "vm" 0 0 (.ok idle))]
  let process := Core.run procStep (some (Controller.new {} (fun _ => none) { unmanagedVms := {"vm"} } : Controller E))
    events
  have hrecord : (process.bind fun c => c.instances "vm").map
      (fun i => (i.status.alive, i.status.ownershipClassification, i.status.manualScalingSticky)) =
        some (true, some false, false) := by decide +kernel
  obtain ⟨i, hi, hstatus⟩ := Option.map_eq_some_iff.1 hrecord
  obtain ⟨c, hc, hi⟩ := Option.bind_eq_some_iff.1 hi
  obtain ⟨halive, hstatus⟩ := Prod.mk.inj hstatus
  obtain ⟨hunmanaged, hsticky⟩ := Prod.mk.inj hstatus
  have hone := hevery {} _ _ events c hc "vm" i hi halive
  obtain ⟨-, hpublished, -⟩ := unmanaged_decided {} _ _ events hc hi hunmanaged hsticky
  obtain ⟨v, hv, hvm, hallowed⟩ := hpublished ["vm"] List.mem_cons_self
  have hmanaged := (hone.published ["vm"] v hv hvm).1 hallowed
  rw [hunmanaged] at hmanaged
  simp at hmanaged

end IoThreadController
