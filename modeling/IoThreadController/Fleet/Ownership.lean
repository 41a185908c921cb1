/-
The ownership-conflict errors are unreachable.

Two copies of a classification exist: the registry in memory and the status of a tracked VM. A conflict between them
ends the daemon, so the question is whether any order of discoveries, refreshes, failures and restarts can make one.

- `Echoes`: a tracked VM that the registry classifies has that classification in its status, and the registry is
  disjoint. `step_echoes` keeps it through every event, completed or failed.
- `recordNew_total`: records that repeat the registry, one for each VM, are recorded without an error.
- `conflict_unreachable`: whole runs of a host with crashes and restarts.
-/
import IoThreadController.Fleet.Durability

namespace IoThreadController

variable {E : ScalingEngine}

namespace Controller

/-! ## Recording without a conflict -/

/-- a classification after recording was there before, or is that of a recorded VM -/
theorem recordNew_origin {o o' : VmOwnership} {changed changed' : Bool} {fleet : List Instance}
    (h : recordNew o changed fleet = .ok (o', changed')) (hd : Disjoint o.managedVms o.unmanagedVms) {id : VmId} {p : Bool}
    (hp : o'.classification id = some p) :
    o.classification id = some p ∨ ∃ i ∈ fleet, i.id = id ∧ i.status.ownershipClassification = some p := by
  induction fleet generalizing o changed with
  | nil =>
    simp only [recordNew, Except.ok.injEq, Prod.mk.injEq] at h
    obtain ⟨rfl, rfl⟩ := h
    exact Or.inl hp
  | cons i fleet ih =>
    have later : ∀ {o1 : VmOwnership} {changed1 : Bool}, recordNew o1 changed1 fleet = .ok (o', changed') →
        Disjoint o1.managedVms o1.unmanagedVms →
        o1.classification id = some p ∨
          ∃ j ∈ i :: fleet, j.id = id ∧ j.status.ownershipClassification = some p := by
      intro o1 changed1 h1 hd1
      rcases ih h1 hd1 with hold | ⟨j, hj, hid, hcl⟩
      · exact Or.inl hold
      · exact Or.inr ⟨j, List.mem_cons_of_mem _ hj, hid, hcl⟩
    rcases recordNew_cons h with ⟨-, h⟩ | ⟨-, -, -, h⟩ | ⟨managed, o1, hc, hr, h⟩
    · exact later h hd
    · exact later h hd
    · obtain ⟨hd1, -, hself, hother⟩ := VmOwnership.record_ok hr hd
      rcases later h hd1 with hold | hnew
      · by_cases hid : id = i.id
        · rw [hid, hself, Option.some.injEq] at hold
          exact Or.inr ⟨i, List.mem_cons_self, hid.symm, by rw [hc, hold]⟩
        · rw [hother id hid] at hold
          exact Or.inl hold
      · exact Or.inr hnew

/-- records that repeat the registry, with one status for each VM, meet none of the conflict errors -/
theorem recordNew_total {o : VmOwnership} (hd : Disjoint o.managedVms o.unmanagedVms) (changed : Bool)
    {fleet : List Instance} {record : VmId → Option Instance} (hrec : ∀ i ∈ fleet, record i.id = some i)
    (hecho : ∀ id i p, record id = some i → o.classification id = some p → i.status.ownershipClassification = some p) :
    ∃ r, recordNew o changed fleet = .ok r := by
  induction fleet generalizing o changed with
  | nil => exact ⟨_, rfl⟩
  | cons i fleet ih =>
    have hrest : ∀ j ∈ fleet, record j.id = some j := fun j hj => hrec j (List.mem_cons_of_mem _ hj)
    rw [recordNew]
    cases hc : i.status.ownershipClassification with
    | none => exact ih hd changed hrest hecho
    | some managed =>
      dsimp only
      cases hpers : o.classification i.id with
      | some persisted =>
        have heq := hecho i.id i persisted (hrec i List.mem_cons_self) hpers
        rw [hc, Option.some.injEq] at heq
        simp only [heq, ne_eq, not_true_eq_false, if_false]
        exact ih hd changed hrest hecho
      | none =>
        dsimp only
        cases hr : o.record i.id managed with
        | error e =>
          unfold VmOwnership.record at hr
          simp only [hpers, Option.isSome_none, Bool.false_eq_true, if_false] at hr
          split_ifs at hr
        | ok o1 =>
          obtain ⟨hd1, -, hself, hother⟩ := VmOwnership.record_ok hr hd
          refine ih hd1 true hrest ?_
          intro id j p hj hp
          by_cases hid : id = i.id
          · subst hid
            -- the record just written: the only record of this VM is `i`
            rw [hrec i List.mem_cons_self, Option.some.injEq] at hj
            rw [hself] at hp
            rw [← hj, hc, hp]
          · rw [hother id hid] at hp
            exact hecho id j p hj hp

/-! ## The invariant -/

/-- the status of every tracked VM repeats what the registry says of it -/
structure Echoes (c : Controller E) : Prop where
  keyed : c.Keyed
  disjoint : Disjoint c.vmOwnership.managedVms c.vmOwnership.unmanagedVms
  echo : ∀ id i p, c.instances id = some i → c.vmOwnership.classification id = some p →
    i.status.ownershipClassification = some p

theorem new_echoes (cfg : Config) (engine : E.State) {o : VmOwnership} (hd : Disjoint o.managedVms o.unmanagedVms) :
    (new cfg engine o : Controller E).Echoes :=
  ⟨new_keyed cfg engine o, hd, fun id i p hi => by cases hi⟩

/-- the controller between the refresh of a tick and its registry write -/
def refreshed (c : Controller E) (env : TickEnv) : Controller E := ((c.beginTick env).refreshFleet env).1

theorem refreshed_instances (c : Controller E) (env : TickEnv) :
    (c.refreshed env).instances = c.refreshedRecord env := by
  rw [refreshed, refreshFleet_instances, refreshedRecord_beginTick]

theorem refreshed_vmOwnership (c : Controller E) (env : TickEnv) : (c.refreshed env).vmOwnership = c.vmOwnership :=
  beginTick_vmOwnership c env

/-- a refresh keeps a classification, and chooses one only for a VM that the registry does not know -/
theorem refreshed_echoes {c : Controller E} (hc : c.Echoes) (env : TickEnv) : (c.refreshed env).Echoes := by
  refine ⟨?_, by rw [refreshed_vmOwnership]; exact hc.disjoint, ?_⟩
  · intro id i hi
    rw [refreshed_instances] at hi
    exact refreshedRecord_id hc.keyed hi
  · intro id i p hi hp
    rw [refreshed_instances] at hi
    rw [refreshed_vmOwnership] at hp
    obtain ⟨j, s, hj, -, rfl⟩ := refreshedRecord_some hi
    have hold := hc.echo id j p hj hp
    simp only [applyThreadPoolSnapshot_classification, hold, Option.getD_some]

theorem fleet_record {c : Controller E} (hk : c.Keyed) (order : List VmId) :
    ∀ i ∈ c.fleet order, c.instances i.id = some i := by
  intro i hi
  obtain ⟨id, -, hid⟩ := List.mem_filterMap.1 hi
  rw [hk id i hid]
  exact hid

/-- the registry loop of a tick meets no conflict and yields a registry that validates -/
theorem recordNew_refreshed {c : Controller E} (hc : c.Echoes) (order : List VmId) :
    ∃ o changed, recordNew c.vmOwnership false (c.fleet order) = .ok (o, changed) ∧ o.validate = .ok () ∧
      ∀ id i p, c.instances id = some i → o.classification id = some p → i.status.ownershipClassification = some p := by
  obtain ⟨⟨o, changed⟩, h⟩ := recordNew_total hc.disjoint false (fleet_record hc.keyed order) hc.echo
  refine ⟨o, changed, h, VmOwnership.validate_ok.2 (recordNew_ok h hc.disjoint).1, ?_⟩
  intro id i p hi hp
  rcases recordNew_origin h hc.disjoint hp with hold | ⟨j, hj, hid, hcl⟩
  · exact hc.echo id i p hi hold
  · have hji := fleet_record hc.keyed order j hj
    rw [hid, hi, Option.some.injEq] at hji
    rw [hji]
    exact hcl

/-- from an invariant state a registry write fails in the file system only -/
theorem persist_echoes {c : Controller E} (hc : c.Echoes) (fault : Option SaveFault) (order : List VmId) :
    (c.persistNewClassifications fault (c.fleet order)).1.Echoes ∧
      ∀ e, (c.persistNewClassifications fault (c.fleet order)).2.2 = .error e →
        ∃ f, fault = some f ∧ e = .state (.io f.text) := by
  obtain ⟨o, changed, h, hv, hecho⟩ := recordNew_refreshed hc order
  have hnew : ({ c with vmOwnership := o } : Controller E).Echoes := ⟨hc.keyed, VmOwnership.validate_ok.1 hv, hecho⟩
  simp only [persistNewClassifications, h]
  by_cases hchanged : changed = true
  · simp only [if_pos hchanged, VmStateStore.save, hv]
    rcases fault with _ | ⟨text⟩ | ⟨text⟩ | ⟨text⟩
    · exact ⟨hnew, fun e he => by cases he⟩
    · exact ⟨hnew, fun e he => ⟨_, rfl, (Except.error.inj he).symm⟩⟩
    · exact ⟨hnew, fun e he => ⟨_, rfl, (Except.error.inj he).symm⟩⟩
    · exact ⟨hnew, fun e he => ⟨_, rfl, (Except.error.inj he).symm⟩⟩
  · simp only [if_neg hchanged]
    exact ⟨hnew, fun e he => by cases he⟩

theorem tick_echoes {c : Controller E} (hc : c.Echoes) (env : TickEnv) :
    (c.tick env).1.Echoes ∧
      ∀ e, (c.tick env).2.2 = .error e → ∃ f, env.saveFault = some f ∧ e = .state (.io f.text) := by
  have hp : (c.prepareTick env).1.Echoes ∧ ∀ e, (c.prepareTick env).2.2 = .error e →
      ∃ f, env.saveFault = some f ∧ e = .state (.io f.text) :=
    persist_echoes (refreshed_echoes hc env) env.saveFault env.order
  refine ⟨⟨step_keyed hc.keyed (.tick env), by rw [tick_vmOwnership]; exact hp.1.disjoint, ?_⟩, ?_⟩
  · intro id i p hi hcl
    rw [tick_vmOwnership] at hcl
    rcases tick_instances c env id with ⟨-, hn⟩ | ⟨j, n, u, hj, hs⟩
    · rw [hn] at hi; simp at hi
    · rw [hs, Option.some.injEq] at hi
      subst hi
      rw [← prepareTick_instances] at hj
      exact hp.1.echo id j p hj hcl
  · intro e he
    rw [tick_result] at he
    exact hp.2 e he

theorem syncInstances_echoes {c : Controller E} (hc : c.Echoes) (ds : List Discovered) (order : List VmId) :
    (c.syncInstances ds order).1.Echoes := by
  have hsame := (syncInstances_frame c ds order).2.1
  refine ⟨step_keyed hc.keyed (.sync ds order), by rw [hsame]; exact hc.disjoint, ?_⟩
  intro id i p hi hp
  rw [hsame] at hp
  rcases syncInstances_some hi with hold | ⟨-, d, -, hid, rfl⟩
  · exact hc.echo id i p hold hp
  · -- a new record starts with what the registry says of its id
    rw [← hid] at hp
    exact hp

theorem handleSetThreadCount_echoes {c : Controller E} (hc : c.Echoes) (vm : VmId) (threads : ℕ) (sticky : Bool)
    (backend : Except BackendClientError Unit) : (c.handleSetThreadCount vm threads sticky backend).1.Echoes := by
  rcases handleSetThreadCount_spec c vm threads sticky backend with ⟨h, -⟩ | ⟨i, hi, -, -, -, h, -⟩
  · rw [h]; exact hc
  · rw [h]
    refine ⟨putStatus_keyed hc.keyed hi _, hc.disjoint, ?_⟩
    intro id j p hj hp
    by_cases hid : id = vm
    · subst hid
      simp only [putStatus, Function.update_self, Option.some.injEq] at hj
      subst hj
      exact hc.echo id i p hi hp
    · simp only [putStatus, Function.update_of_ne hid] at hj
      exact hc.echo id j p hj hp

/-- every event keeps the two copies consistent, and fails only when a registry write does -/
theorem step_echoes {c : Controller E} (hc : c.Echoes) (ev : Event) :
    (c.step ev).1.Echoes ∧ ∀ e, (c.step ev).2.2 = .error e →
      ∃ env f, ev = .tick env ∧ env.saveFault = some f ∧ e = .state (.io f.text) := by
  cases ev with
  | tick env =>
    obtain ⟨hnext, herr⟩ := tick_echoes hc env
    refine ⟨hnext, ?_⟩
    intro e he
    obtain ⟨f, hf, hio⟩ := herr e he
    exact ⟨env, f, rfl, hf, hio⟩
  | sync ds order => exact ⟨syncInstances_echoes hc ds order, fun e he => by cases he⟩
  | setThreadCount vm threads sticky backend =>
    exact ⟨handleSetThreadCount_echoes hc vm threads sticky backend, fun e he => by cases he⟩
  | setAllThreadCounts threads sticky backend order =>
    refine ⟨?_, fun e he => by cases he⟩
    exact handleSetAllThreadCounts_preserves Echoes threads sticky backend
      (fun c' vm h => handleSetThreadCount_echoes h vm threads sticky (backend vm)) order hc
  | query => exact ⟨hc, fun e he => by cases he⟩

end Controller

/-! ## Hosts -/

section Host

variable {β : Type} {J : Serde β}

/-- a process that runs on a host keeps the invariant through starts, events and crashes -/
theorem hostStep_echoes {h : Host E β} (hi : ∀ c, h.process = some c → c.Echoes) (ev : HostEvent E β) :
    ∀ c, (hostStep J h ev).process = some c → c.Echoes := by
  intro c hc
  cases ev with
  | start cfg engine readFault =>
    simp only [hostStep] at hc
    split at hc
    · next hload =>
      simp only [Option.some.injEq] at hc
      subst hc
      exact Controller.new_echoes cfg engine (load_disjoint hload)
    · exact hi c hc
  | event e torn =>
    cases hp : h.process with
    | none => simp [hostStep, hp, procStep] at hc
    | some c0 =>
      simp only [hostStep, hp] at hc
      obtain ⟨-, rfl⟩ := procStep_eq_some.1 hc
      exact (Controller.step_echoes (hi c0 hp) e).1
  | crash e performed torn => simp [hostStep] at hc

/-- the ownership-conflict errors are unreachable: whatever the registry file held at first and whatever happened on
the host since, in a running process no status contradicts the registry; the registry loop of its next tick meets
neither a changed nor a duplicate classification and yields a registry that validates; and the tick returns an error
only when writing the registry file fails -/
theorem conflict_unreachable (J : Serde β) (main tmp : Option β) (es : List (HostEvent E β)) {c : Controller E}
    (hc : (Core.run (hostStep J) (Host.fresh E main tmp) es).process = some c) :
    (∀ id i b p, c.instances id = some i → i.status.ownershipClassification = some b →
      c.vmOwnership.classification id = some p → b = p) ∧
    ∀ env : TickEnv,
      (∃ o changed, Controller.recordNew (c.refreshed env).vmOwnership false ((c.refreshed env).fleet env.order) =
        .ok (o, changed) ∧ o.validate = .ok ()) ∧
      ∀ e, (c.tick env).2.2 = .error e → ∃ f, env.saveFault = some f ∧ e = .state (.io f.text) := by
  have hrun : ∀ c, (Core.run (hostStep J) (Host.fresh E main tmp) es).process = some c → c.Echoes := by
    refine Core.run_inv (fun h : Host E β => ∀ c, h.process = some c → c.Echoes)
      (fun h ev hi _ => hostStep_echoes hi ev) ?_ (Core.along_true _ _ es)
    intro c hnone
    cases hnone
  have hinv := hrun c hc
  refine ⟨?_, fun env => ⟨?_, (Controller.tick_echoes hinv env).2⟩⟩
  · intro id i b p hi hb hp
    have hecho := hinv.echo id i p hi hp
    rw [hb, Option.some.injEq] at hecho
    exact hecho
  · obtain ⟨o, changed, h, hv, -⟩ := Controller.recordNew_refreshed (Controller.refreshed_echoes hinv env) env.order
    exact ⟨o, changed, h, hv⟩

/-- a VM recorded by a process that crashed, discovered again by the next one: its refresh meets no conflict -/
theorem conflict_unreachable_restart :
    let E := thresholdEngine ThresholdEngine.standard
    let idle : ThreadPoolSnapshot := { threadCount := 2, vcpuCount := 8, perThreadUtil := some 0 }
    let start : HostEvent E VmOwnership := .start {} (fun _ => none) false
    let sync : HostEvent E VmOwnership := .event (.sync [⟨"vm", 1⟩] ["vm"]) none
    let tick := TickEnv.single "vm" 0 0 (.ok idle)
    let es := [start, sync, .crash (.tick tick) 4 none, start, sync]
    ∃ c, (Core.run (hostStep plainSerde) (Host.fresh E none none) es).process = some c ∧
      c.vmOwnership.classification "vm" = some true ∧ (c.tick tick).2.2 = .ok () := by
  intro E idle start sync tick es
  have hsome : (Core.run (hostStep plainSerde) (Host.fresh E none none) es).process.isSome = true := by decide +kernel
  obtain ⟨c, hc⟩ := Option.isSome_iff_exists.1 hsome
  have hclass : ((Core.run (hostStep plainSerde) (Host.fresh E none none) es).process.map
      fun c => c.vmOwnership.classification "vm") = some (some true) := by decide +kernel
  rw [hc, Option.map_some, Option.some.injEq] at hclass
  refine ⟨c, hc, hclass, ?_⟩
  cases hr : (c.tick tick).2.2 with
  | ok u => rfl
  | error e =>
    obtain ⟨f, hf, -⟩ := ((conflict_unreachable plainSerde none none es hc).2 tick).2 e hr
    cases hf

end Host

end IoThreadController
