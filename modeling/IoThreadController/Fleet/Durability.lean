/-
Ownership is durable before it is acted on.

- `recordNew_ok`: the registry that a tick records extends the one before and classifies every refreshed VM as its status
  does.
- `persist_performed`: at every point of a save the file holds the registry before the tick or an extension of it, and
  after a successful save it holds the registry in memory.
- `Running`: what relates a running process to the file. `step_performed` and `step_running` are one event of it, stopped
  anywhere or completed.
- `ownership_durable`: whole runs of a host with crashes and restarts.
-/
import IoThreadController.Fleet.Inventory
import IoThreadController.Model.Threshold

namespace IoThreadController

variable {E : ScalingEngine}

/-! ## Recording -/

namespace VmOwnership

/-- a classification survives every extension that keeps the sets disjoint -/
theorem Le.classification {o o' : VmOwnership} (h : o.Le o') (hd : Disjoint o'.managedVms o'.unmanagedVms) {id : VmId}
    {b : Bool} (hb : o.classification id = some b) : o'.classification id = some b := by
  cases b with
  | true => exact classification_true.2 (h.1 (classification_true.1 hb))
  | false =>
    have hd0 : Disjoint o.managedVms o.unmanagedVms := hd.mono h.1 h.2
    exact (classification_false hd).2 (h.2 ((classification_false hd0).1 hb))

end VmOwnership

namespace Controller

/-- what recording one VM does before the rest of the fleet: nothing, nothing new, or a first classification -/
theorem recordNew_cons {o o' : VmOwnership} {changed changed' : Bool} {i : Instance} {fleet : List Instance}
    (h : recordNew o changed (i :: fleet) = .ok (o', changed')) :
    (i.status.ownershipClassification = none ∧ recordNew o changed fleet = .ok (o', changed')) ∨
      (∃ managed, i.status.ownershipClassification = some managed ∧ o.classification i.id = some managed ∧
        recordNew o changed fleet = .ok (o', changed')) ∨
      ∃ managed o1, i.status.ownershipClassification = some managed ∧ o.record i.id managed = .ok o1 ∧
        recordNew o1 true fleet = .ok (o', changed') := by
  rw [recordNew] at h
  cases hc : i.status.ownershipClassification with
  | none =>
    rw [hc] at h
    exact Or.inl ⟨rfl, h⟩
  | some managed =>
    rw [hc] at h
    dsimp only at h
    cases hp : o.classification i.id with
    | some persisted =>
      rw [hp] at h
      dsimp only at h
      split_ifs at h with hne
      exact Or.inr (Or.inl ⟨managed, rfl, by rw [not_not.1 hne], h⟩)
    | none =>
      rw [hp] at h
      dsimp only at h
      cases hr : o.record i.id managed with
      | error e => rw [hr] at h; simp at h
      | ok o1 =>
        rw [hr] at h
        exact Or.inr (Or.inr ⟨managed, o1, rfl, hr, h⟩)

theorem recordNew_ok {o o' : VmOwnership} {changed changed' : Bool} {fleet : List Instance}
    (h : recordNew o changed fleet = .ok (o', changed')) (hd : Disjoint o.managedVms o.unmanagedVms) :
    Disjoint o'.managedVms o'.unmanagedVms ∧ o.Le o' ∧ (changed' = false → o' = o ∧ changed = false) ∧
      ∀ i ∈ fleet, ∀ b, i.status.ownershipClassification = some b → o'.classification i.id = some b := by
  induction fleet generalizing o changed with
  | nil =>
    simp only [recordNew, Except.ok.injEq, Prod.mk.injEq] at h
    obtain ⟨rfl, rfl⟩ := h
    exact ⟨hd, VmOwnership.Le.refl _, fun hc => ⟨rfl, hc⟩, fun i hi => by cases hi⟩
  | cons i fleet ih =>
    -- the head keeps its classification, whichever way it was met
    have head : ∀ {o1 : VmOwnership} {managed : Bool}, i.status.ownershipClassification = some managed →
        o1.classification i.id = some managed → o1.Le o' → Disjoint o'.managedVms o'.unmanagedVms →
        ∀ b, i.status.ownershipClassification = some b → o'.classification i.id = some b := by
      intro o1 managed hc h1 hle hd' b hb
      rw [hc, Option.some.injEq] at hb
      subst hb
      exact hle.classification hd' h1
    rcases recordNew_cons h with ⟨hc, h⟩ | ⟨managed, hc, hp, h⟩ | ⟨managed, o1, hc, hr, h⟩
    · obtain ⟨h1, h2, h3, h4⟩ := ih h hd
      refine ⟨h1, h2, h3, List.forall_mem_cons.2 ⟨?_, h4⟩⟩
      intro b hb
      rw [hc] at hb
      cases hb
    · obtain ⟨h1, h2, h3, h4⟩ := ih h hd
      exact ⟨h1, h2, h3, List.forall_mem_cons.2 ⟨head hc hp h2 h1, h4⟩⟩
    · obtain ⟨g1, g2, g3, -⟩ := VmOwnership.record_ok hr hd
      obtain ⟨h1, h2, h3, h4⟩ := ih h g1
      refine ⟨h1, g2.trans h2, fun hf => ?_, List.forall_mem_cons.2 ⟨head hc g3 h2 h1, h4⟩⟩
      exact absurd (h3 hf).2 Bool.noConfusion

end Controller

/-! ## The file under a list of effects -/

section Host

variable {β : Type} {J : Serde β} {torn : Option β} {w : World β}

theorem load_disjoint {data : Option β} {o : VmOwnership} (h : VmStateStore.load J data = .ok o) :
    Disjoint o.managedVms o.unmanagedVms := by
  unfold VmStateStore.load at h
  cases data with
  | none => simp only [Except.ok.injEq] at h; subst h; exact Finset.disjoint_empty_left _
  | some data =>
    dsimp only at h
    cases hs : J.fromSlice data with
    | none => rw [hs] at h; simp at h
    | some o' =>
      rw [hs] at h
      dsimp only at h
      cases hv : o'.validate with
      | error e => rw [hv] at h; simp at h
      | ok u =>
        rw [hv] at h
        simp only [Except.ok.injEq] at h
        exact h ▸ VmOwnership.validate_ok.1 hv

theorem load_written (hJ : J.RoundTrips) {o : VmOwnership} (hd : Disjoint o.managedVms o.unmanagedVms) :
    VmStateStore.load J (some (J.toVecPretty o)) = .ok o := by
  simp only [VmStateStore.load, hJ o, VmOwnership.validate_ok.2 hd]

theorem performAll_append (a b : List Effect) :
    w.performAll J torn (a ++ b) = (w.performAll J torn a).performAll J torn b := List.foldl_append

/-- effects other than file operations leave the file alone, and add the automatic resizes to the record -/
theorem performAll_noFs {effects : List Effect} (h : ∀ e ∈ effects, ∀ op, e ≠ .fs op) :
    (w.performAll J torn effects).main = w.main ∧
      (w.performAll J torn effects).resized = w.resized ++ effects.filterMap automaticResize := by
  induction effects generalizing w with
  | nil => exact ⟨rfl, (List.append_nil _).symm⟩
  | cons e effects ih =>
    have hrest := ih (w := w.perform J torn e) fun x hx => h x (List.mem_cons_of_mem _ hx)
    have hone : (w.perform J torn e).main = w.main ∧
        (w.perform J torn e).resized = w.resized ++ (automaticResize e).toList := by
      cases e with
      | fs op => exact absurd rfl (h _ List.mem_cons_self op)
      | getSnapshot client => exact ⟨rfl, (List.append_nil _).symm⟩
      | close client => exact ⟨rfl, (List.append_nil _).symm⟩
      | report vm outcome => exact ⟨rfl, (List.append_nil _).symm⟩
      | setThreadCount client vm count origin =>
        cases origin with
        | automatic => exact ⟨rfl, rfl⟩
        | manual => exact ⟨rfl, (List.append_nil _).symm⟩
    refine ⟨hrest.1.trans hone.1, ?_⟩
    change ((w.perform J torn e).performAll J torn effects).resized = _
    rw [hrest.2, hone.2, List.append_assoc]
    cases ha : automaticResize e <;> simp [ha]

theorem performAll_fs (ops : List FsOp) : (w.performAll J torn (ops.map .fs)).resized = w.resized := by
  induction ops generalizing w with
  | nil => rfl
  | cons op ops ih =>
    have hone : (w.perform J torn (.fs op)).resized = w.resized := by
      cases op with
      | renameTmp => cases ht : w.tmp <;> simp [World.perform, ht]
      | createDirAll => rfl
      | writeTmp o => rfl
      | tornTmp => rfl
    exact ih.trans hone

/-- at every point of a save the file is the old one or the new one, and after a successful save the new one -/
theorem save_performed (fault : Option SaveFault) (o : VmOwnership) (n : ℕ) :
    ((w.performAll J torn (((VmStateStore.save fault o).1.take n).map .fs)).main = w.main ∨
      (w.performAll J torn (((VmStateStore.save fault o).1.take n).map .fs)).main = some (J.toVecPretty o)) ∧
    ((VmStateStore.save fault o).2 = .ok () →
      (w.performAll J torn ((VmStateStore.save fault o).1.map .fs)).main = some (J.toVecPretty o)) := by
  unfold VmStateStore.save
  cases o.validate with
  | error e => exact ⟨Or.inl (by simp [World.performAll]), fun h => by cases h⟩
  | ok u =>
    rcases fault with _ | ⟨text⟩ | ⟨text⟩ | ⟨text⟩
    · refine ⟨?_, fun _ => rfl⟩
      rcases n with _ | _ | _ | n
      · exact Or.inl rfl
      · exact Or.inl rfl
      · exact Or.inl rfl
      · exact Or.inr (by simp [World.performAll, World.perform])
    · exact ⟨Or.inl (by simp [World.performAll]), fun h => by cases h⟩
    · refine ⟨Or.inl ?_, fun h => by cases h⟩
      rcases n with _ | _ | n <;> simp [World.performAll, World.perform]
    · refine ⟨Or.inl ?_, fun h => by cases h⟩
      rcases n with _ | _ | n <;> simp [World.performAll, World.perform]

/-- the write of a tick, stopped after `n` operations or completed -/
theorem persist_performed (hJ : J.RoundTrips) {c : Controller E} (hw : VmStateStore.load J w.main = .ok c.vmOwnership)
    (fault : Option SaveFault) (fleet : List Instance) (n : ℕ) :
    (∃ o, VmStateStore.load J
        (w.performAll J torn ((c.persistNewClassifications fault fleet).2.1.take n)).main = .ok o ∧
      c.vmOwnership.Le o) ∧
    ((c.persistNewClassifications fault fleet).2.2 = .ok () →
      VmStateStore.load J (w.performAll J torn (c.persistNewClassifications fault fleet).2.1).main =
          .ok (c.persistNewClassifications fault fleet).1.vmOwnership ∧
        c.vmOwnership.Le (c.persistNewClassifications fault fleet).1.vmOwnership ∧
        ∀ i ∈ fleet, ∀ b, i.status.ownershipClassification = some b →
          (c.persistNewClassifications fault fleet).1.vmOwnership.classification i.id = some b) := by
  have hd := load_disjoint hw
  unfold Controller.persistNewClassifications
  cases hr : Controller.recordNew c.vmOwnership false fleet with
  | error e =>
    refine ⟨⟨c.vmOwnership, ?_, VmOwnership.Le.refl _⟩, fun h => by cases h⟩
    simpa [World.performAll] using hw
  | ok r =>
    obtain ⟨o, changed⟩ := r
    obtain ⟨hdo, hle, hsame, hcl⟩ := Controller.recordNew_ok hr hd
    dsimp only
    by_cases hc : changed = true
    · rw [if_pos hc]
      have hs := @save_performed β J torn w fault o n
      rcases hsave : VmStateStore.save fault o with ⟨ops, result⟩
      rw [hsave] at hs
      have hstop : ∃ o', VmStateStore.load J (w.performAll J torn ((ops.map .fs).take n)).main = .ok o' ∧
          c.vmOwnership.Le o' := by
        rw [← List.map_take]
        rcases hs.1 with hm | hm
        · rw [hm]; exact ⟨c.vmOwnership, hw, VmOwnership.Le.refl _⟩
        · rw [hm]; exact ⟨o, load_written hJ hdo, hle⟩
      cases result with
      | error e => exact ⟨hstop, fun h => by cases h⟩
      | ok u =>
        refine ⟨hstop, fun _ => ⟨?_, hle, hcl⟩⟩
        have hm := hs.2 rfl
        dsimp only at hm ⊢
        rw [hm]
        exact load_written hJ hdo
    · rw [if_neg hc]
      have ho : o = c.vmOwnership := (hsame (by simpa using hc)).1
      refine ⟨⟨c.vmOwnership, ?_, VmOwnership.Le.refl _⟩, fun _ => ⟨?_, hle, hcl⟩⟩
      · simpa [World.performAll] using hw
      · rw [ho]; exact hw

/-! ## A running process -/

/-- every classified record agrees with the registry in memory -/
def Controller.Agrees (c : Controller E) : Prop :=
  ∀ id i b, c.instances id = some i → i.status.ownershipClassification = some b → c.vmOwnership.classification id = some b

/-- a process and its file: the registry in memory is the one on disk, and the records agree with it -/
structure Running (J : Serde β) (w : World β) (c : Controller E) : Prop where
  disk : VmStateStore.load J w.main = .ok c.vmOwnership
  keyed : c.Keyed
  agrees : c.Agrees

/-- the registry step of a tick -/
def persistStep (c : Controller E) (env : TickEnv) : Controller E × List Effect × Except ControllerError Unit :=
  ((c.beginTick env).refreshFleet env).1.persistNewClassifications env.saveFault
    (((c.beginTick env).refreshFleet env).1.fleet env.order)

theorem prepareTick_persistStep (c : Controller E) (env : TickEnv) :
    c.prepareTick env =
      ((persistStep c env).1, c.refreshEffects env ++ (persistStep c env).2.1, (persistStep c env).2.2) :=
  rfl

/-- the effects of the attempts of a tick -/
def attemptEffects (c : Controller E) (env : TickEnv) : List Effect :=
  (c.tickAttempts env).flatMap fun x => (x.1.tryEntry env.attempt x.2).2.1

/-- the effects of a tick in three phases: reads, registry writes, and the effects of the attempts -/
theorem tick_phases (c : Controller E) (env : TickEnv) :
    (c.tick env).2.1 = c.refreshEffects env ++ ((persistStep c env).2.1 ++ attemptEffects c env) := by
  rw [Controller.tick_effects, prepareTick_persistStep, List.append_assoc]
  rfl

/-- phase 1: reads change nothing -/
theorem reads_performed (c : Controller E) (env : TickEnv) (n : ℕ) :
    (w.performAll J torn ((c.refreshEffects env).take n)).main = w.main ∧
      (w.performAll J torn ((c.refreshEffects env).take n)).resized = w.resized := by
  have hread : ∀ e ∈ (c.refreshEffects env).take n, e.isRead = true := fun e he =>
    Controller.refreshEffects_isRead c env e (List.mem_of_mem_take he)
  have hnoFs : ∀ e ∈ (c.refreshEffects env).take n, ∀ op, e ≠ .fs op := by
    rintro e he op rfl
    cases hread _ he
  have hnone : ((c.refreshEffects env).take n).filterMap automaticResize = [] :=
    List.filterMap_eq_nil_iff.2 fun e he => (Effect.isRead_spec (hread e he)).1
  obtain ⟨hmain, hres⟩ := @performAll_noFs β J torn w _ hnoFs
  rw [hnone, List.append_nil] at hres
  exact ⟨hmain, hres⟩

/-- phase 2: the registry writes resize nothing and leave an extension of the registry on disk -/
theorem persistStep_performed (hJ : J.RoundTrips) {c : Controller E}
    (hw : VmStateStore.load J w.main = .ok c.vmOwnership) (env : TickEnv) (n : ℕ) :
    (w.performAll J torn ((persistStep c env).2.1.take n)).resized = w.resized ∧
    (∃ o, VmStateStore.load J (w.performAll J torn ((persistStep c env).2.1.take n)).main = .ok o ∧
      c.vmOwnership.Le o) ∧
    ((persistStep c env).2.2 = .ok () →
      VmStateStore.load J (w.performAll J torn (persistStep c env).2.1).main = .ok (persistStep c env).1.vmOwnership ∧
        c.vmOwnership.Le (persistStep c env).1.vmOwnership ∧
        ∀ i ∈ ((c.beginTick env).refreshFleet env).1.fleet env.order, ∀ b,
          i.status.ownershipClassification = some b →
          (persistStep c env).1.vmOwnership.classification i.id = some b) := by
  have hsame : ((c.beginTick env).refreshFleet env).1.vmOwnership = c.vmOwnership :=
    Controller.beginTick_vmOwnership c env
  rw [← hsame] at hw ⊢
  obtain ⟨ops, hops⟩ := Controller.persist_effects ((c.beginTick env).refreshFleet env).1 env.saveFault
    (((c.beginTick env).refreshFleet env).1.fleet env.order)
  refine ⟨?_, persist_performed hJ hw env.saveFault _ n⟩
  have hops' : (persistStep c env).2.1 = ops.map .fs := hops
  rw [hops', ← List.map_take, performAll_fs]

/-- after a successful preparation every refreshed record agrees with the registry -/
theorem prepareTick_agrees (hJ : J.RoundTrips) {c : Controller E} (hr : Running J w c) {env : TickEnv}
    (ho : Enumerates env.order c.instances) (hok : (c.prepareTick env).2.2 = .ok ()) {id : VmId} {i : Instance} {b : Bool}
    (hi : c.refreshedRecord env id = some i) (hb : i.status.ownershipClassification = some b) :
    (c.prepareTick env).1.vmOwnership.classification id = some b := by
  have hid : i.id = id := Controller.refreshedRecord_id hr.keyed hi
  have hmem : i ∈ ((c.beginTick env).refreshFleet env).1.fleet env.order := by
    refine List.mem_filterMap.2 ⟨id, Controller.refreshedRecord_mem ho hi, ?_⟩
    rw [Controller.refreshFleet_instances, Controller.refreshedRecord_beginTick]
    exact hi
  have hp := ((@persistStep_performed E β J none w hJ c hr.disk env 0).2.2 hok).2.2 i hmem b hb
  rw [← hid]
  exact hp

/-- phase 3: the attempts leave the file alone, and resize only VMs that the registry of the tick lists as managed -/
theorem attemptEffects_performed (hJ : J.RoundTrips) {c : Controller E} {v : World β} (hr : Running J v c)
    {env : TickEnv} (ho : Enumerates env.order c.instances) (n : ℕ) :
    (w.performAll J torn ((attemptEffects c env).take n)).main = w.main ∧
      ∀ call ∈ (w.performAll J torn ((attemptEffects c env).take n)).resized, call ∈ w.resized ∨
        0 < n ∧ (c.prepareTick env).2.2 = .ok () ∧ call.1 ∈ (c.prepareTick env).1.vmOwnership.managedVms := by
  have hnoFs : ∀ e ∈ (attemptEffects c env).take n, ∀ op, e ≠ .fs op := by
    rintro e he op rfl
    obtain ⟨x, hx, he⟩ := List.mem_flatMap.1 (List.mem_of_mem_take he)
    obtain ⟨-, -, i, t, -, hi, ht, -⟩ := Controller.tickAttempts_spec hx
    unfold Controller.tryEntry at he
    rw [Controller.applyEngineDecision_eq x.1 _ hi ht] at he
    rcases List.mem_append.1 he with he | he
    · cases (Controller.mem_attemptCalls he).1
    · cases List.mem_singleton.1 he
  obtain ⟨hmain, hres⟩ := @performAll_noFs β J torn w _ hnoFs
  refine ⟨hmain, ?_⟩
  intro call hcall
  rw [hres] at hcall
  rcases List.mem_append.1 hcall with hcall | hcall
  · exact Or.inl hcall
  · obtain ⟨e, he, ha⟩ := List.mem_filterMap.1 hcall
    have hpos : 0 < n := by
      by_contra h
      have hzero : n = 0 := by omega
      rw [hzero, List.take_zero] at he
      simp at he
    have hok : (c.prepareTick env).2.2 = .ok () := by
      cases h : (c.prepareTick env).2.2 with
      | ok u => rfl
      | error err =>
        have hnil : attemptEffects c env = [] := by
          unfold attemptEffects Controller.tickAttempts
          rw [h]; rfl
        rw [hnil, List.take_nil] at he
        simp at he
    have hmem : e ∈ (c.step (.tick env)).2.1 := by
      change e ∈ (c.tick env).2.1
      rw [Controller.tick_effects]
      exact List.mem_append_right _ (List.mem_of_mem_take he)
    obtain ⟨env', henv, x, -, -, i, hi, hlimits⟩ := Controller.step_resize hmem ha
    cases henv
    exact Or.inr ⟨hpos, hok, VmOwnership.classification_true.1 (prepareTick_agrees hJ hr ho hok hi hlimits.managed)⟩

/-- a tick stopped anywhere: the file holds an extension of the registry in memory, and every VM resized so far is
managed in it -/
theorem tick_performed (hJ : J.RoundTrips) {c : Controller E} (hr : Running J w c) {env : TickEnv}
    (ho : Enumerates env.order c.instances) (n : ℕ) :
    ∃ o, VmStateStore.load J (w.performAll J torn ((c.tick env).2.1.take n)).main = .ok o ∧ c.vmOwnership.Le o ∧
      ∀ call ∈ (w.performAll J torn ((c.tick env).2.1.take n)).resized, call ∈ w.resized ∨ call.1 ∈ o.managedVms := by
  rw [tick_phases, List.take_append, performAll_append, List.take_append, performAll_append]
  obtain ⟨hmain1, hres1⟩ := @reads_performed E β J torn w c env n
  generalize w.performAll J torn ((c.refreshEffects env).take n) = w1 at hmain1 hres1 ⊢
  generalize n - (c.refreshEffects env).length = m
  have hdisk1 : VmStateStore.load J w1.main = .ok c.vmOwnership := by rw [hmain1]; exact hr.disk
  obtain ⟨hres2, ⟨o, hload, hle⟩, hdone⟩ := @persistStep_performed E β J torn w1 hJ c hdisk1 env m
  have hall : 0 < m - (persistStep c env).2.1.length →
      w1.performAll J torn ((persistStep c env).2.1.take m) = w1.performAll J torn (persistStep c env).2.1 := by
    intro h
    rw [List.take_of_length_le (by omega)]
  generalize w1.performAll J torn ((persistStep c env).2.1.take m) = w2 at hres2 hload hall ⊢
  obtain ⟨hmain3, hres3⟩ := @attemptEffects_performed E β J torn w2 hJ c w hr env ho (m - (persistStep c env).2.1.length)
  refine ⟨o, by rw [hmain3]; exact hload, hle, ?_⟩
  intro call hcall
  rcases hres3 call hcall with h | ⟨hpos, hok, hmanaged⟩
  · rw [hres2, hres1] at h
    exact Or.inl h
  · rw [hall hpos] at hload
    have heq : o = (c.prepareTick env).1.vmOwnership := Except.ok.inj (hload.symm.trans (hdone hok).1)
    rw [heq]
    exact Or.inr hmanaged

/-- a completed tick leaves the process running on the registry that is on disk -/
theorem tick_running (hJ : J.RoundTrips) {c : Controller E} (hr : Running J w c) {env : TickEnv}
    (ho : Enumerates env.order c.instances) (hok : (c.tick env).2.2 = .ok ()) :
    Running J (w.performAll J torn (c.tick env).2.1) (c.tick env).1 := by
  rw [Controller.tick_result] at hok
  refine ⟨?_, Controller.step_keyed hr.keyed (.tick env), ?_⟩
  · rw [tick_phases, performAll_append, performAll_append, Controller.tick_vmOwnership]
    have h1 := @reads_performed E β J torn w c env (c.refreshEffects env).length
    rw [List.take_length] at h1
    have hdisk1 : VmStateStore.load J (w.performAll J torn (c.refreshEffects env)).main = .ok c.vmOwnership := by
      rw [h1.1]; exact hr.disk
    have h2 := (@persistStep_performed E β J torn _ hJ c hdisk1 env 0).2.2 hok
    have h3 := (@attemptEffects_performed E β J torn ((w.performAll J torn (c.refreshEffects env)).performAll J torn
      (persistStep c env).2.1) hJ c w hr env ho (attemptEffects c env).length).1
    rw [List.take_length] at h3
    rw [h3]
    exact h2.1
  · intro id i b hi hb
    rw [Controller.tick_vmOwnership]
    rcases Controller.tick_instances c env id with ⟨-, hn⟩ | ⟨j, n, u, hj, hs⟩
    · rw [hn] at hi; simp at hi
    · rw [hs, Option.some.injEq] at hi
      subst hi
      exact prepareTick_agrees hJ hr ho hok hj hb

/-! ## Events -/

theorem step_performed (hJ : J.RoundTrips) {c : Controller E} (hr : Running J w c) {ev : Event} (ho : ev.Ordered c)
    (n : ℕ) :
    ∃ o, VmStateStore.load J (w.performAll J torn ((c.step ev).2.1.take n)).main = .ok o ∧ c.vmOwnership.Le o ∧
      ∀ call ∈ (w.performAll J torn ((c.step ev).2.1.take n)).resized, call ∈ w.resized ∨ call.1 ∈ o.managedVms := by
  by_cases hev : ∃ env, ev = .tick env
  · obtain ⟨env, rfl⟩ := hev
    exact tick_performed hJ hr ho n
  · have hne : ∀ env, ev ≠ .tick env := fun env h => hev ⟨env, h⟩
    have heff := @Controller.step_effects E c ev hne
    obtain ⟨hmain, hres⟩ := @performAll_noFs β J torn w _ fun e he => (heff e (List.mem_of_mem_take he)).2
    refine ⟨c.vmOwnership, by rw [hmain]; exact hr.disk, VmOwnership.Le.refl _, ?_⟩
    intro call hcall
    rw [hres, List.filterMap_eq_nil_iff.2 fun e he => (heff e (List.mem_of_mem_take he)).1, List.append_nil] at hcall
    exact Or.inl hcall

/-- the manual requests keep ownership and classifications -/
theorem handleSetThreadCount_agrees {c : Controller E} (hc : c.Agrees) (vm : VmId) (threads : ℕ) (sticky : Bool)
    (backend : Except BackendClientError Unit) : (c.handleSetThreadCount vm threads sticky backend).1.Agrees ∧
      (c.handleSetThreadCount vm threads sticky backend).1.vmOwnership = c.vmOwnership := by
  rcases Controller.handleSetThreadCount_spec c vm threads sticky backend with ⟨h, -⟩ | ⟨i, hi, -, -, -, h, -⟩
  · rw [h]; exact ⟨hc, rfl⟩
  · rw [h]
    refine ⟨?_, rfl⟩
    intro id j b hj hb
    by_cases hx : id = vm
    · subst hx
      simp only [Controller.putStatus, Function.update_self, Option.some.injEq] at hj
      subst hj
      exact hc id i b hi hb
    · simp only [Controller.putStatus, Function.update_of_ne hx] at hj
      exact hc id j b hj hb

theorem step_running (hJ : J.RoundTrips) {c : Controller E} (hr : Running J w c) {ev : Event} (ho : ev.Ordered c)
    (hok : (c.step ev).2.2 = .ok ()) : Running J (w.performAll J torn (c.step ev).2.1) (c.step ev).1 := by
  by_cases hev : ∃ env, ev = .tick env
  · obtain ⟨env, rfl⟩ := hev
    exact tick_running hJ hr ho hok
  have hne : ∀ env, ev ≠ .tick env := fun env h => hev ⟨env, h⟩
  obtain ⟨hmain, -⟩ := @performAll_noFs β J torn w _ fun e he => (@Controller.step_effects E c ev hne e he).2
  have hkeep : (c.step ev).1.vmOwnership = c.vmOwnership ∧ (c.step ev).1.Agrees := by
    cases ev with
    | tick env => exact absurd rfl (hne env)
    | query => exact ⟨rfl, hr.agrees⟩
    | sync ds order =>
      have hsame : (c.syncInstances ds order).1.vmOwnership = c.vmOwnership :=
        (Controller.syncInstances_frame c ds order).2.1
      refine ⟨hsame, ?_⟩
      intro id i b hi hb
      change (c.syncInstances ds order).1.vmOwnership.classification id = some b
      rw [hsame]
      rcases Controller.syncInstances_some hi with h | ⟨-, d, -, hid, rfl⟩
      · exact hr.agrees id i b h hb
      · rw [← hid]; exact hb
    | setThreadCount vm threads sticky backend =>
      have h := handleSetThreadCount_agrees hr.agrees vm threads sticky backend
      exact ⟨h.2, h.1⟩
    | setAllThreadCounts threads sticky backend order =>
      have h := Controller.handleSetAllThreadCounts_preserves
        (fun c' : Controller E => c'.Agrees ∧ c'.vmOwnership = c.vmOwnership) threads sticky backend
        (fun c' vm h => ⟨(handleSetThreadCount_agrees h.1 vm threads sticky _).1,
          (handleSetThreadCount_agrees h.1 vm threads sticky _).2.trans h.2⟩) order ⟨hr.agrees, rfl⟩
      exact ⟨h.2, h.1⟩
  refine ⟨?_, Controller.step_keyed hr.keyed ev, hkeep.2⟩
  rw [hmain, hkeep.1]
  exact hr.disk

/-! ## Hosts -/

structure HostInv (J : Serde β) (h : Host E β) : Prop where
  resized : ∀ call ∈ h.world.resized, ∃ o, VmStateStore.load J h.world.main = .ok o ∧ call.1 ∈ o.managedVms
  running : ∀ c, h.process = some c → Running J h.world c

/-- the orders of the events of a running process are iteration orders of its inventory -/
def HostEvent.Ordered (h : Host E β) : HostEvent E β → Prop
  | .start .. => True
  | .event e _ | .crash e _ _ => ∀ c, h.process = some c → e.Ordered c

theorem tear_frame (w : World β) (torn : Option β) (e : Option Effect) :
    (w.tear torn e).main = w.main ∧ (w.tear torn e).resized = w.resized := by
  unfold World.tear
  split <;> exact ⟨rfl, rfl⟩

/-- an event of a running process, stopped after `n` effects, leaves a loadable file with every resized VM managed -/
theorem event_performed (hJ : J.RoundTrips) {h : Host E β} (hi : HostInv J h) {c : Controller E} (hc : h.process = some c)
    {e : Event} (ho : e.Ordered c) (torn : Option β) (n : ℕ) :
    ∃ o', VmStateStore.load J (h.world.performAll J torn ((c.step e).2.1.take n)).main = .ok o' ∧
      (∀ o, VmStateStore.load J h.world.main = .ok o → o.Le o') ∧
      ∀ call ∈ (h.world.performAll J torn ((c.step e).2.1.take n)).resized, call.1 ∈ o'.managedVms := by
  have hr := hi.running c hc
  obtain ⟨o', hload, hle, hcalls⟩ := @step_performed E β J torn h.world hJ c hr e ho n
  refine ⟨o', hload, ?_, ?_⟩
  · intro o hold
    rw [hr.disk, Except.ok.injEq] at hold
    exact hold ▸ hle
  · intro call hcall
    rcases hcalls call hcall with hold | hnew
    · obtain ⟨o, hload0, hmem⟩ := hi.resized call hold
      rw [hr.disk, Except.ok.injEq] at hload0
      exact hle.1 (hload0 ▸ hmem)
    · exact hnew

/-- what one host event does to the file and to the resize record, from an invariant state -/
theorem hostStep_inv (hJ : J.RoundTrips) {h : Host E β} (hi : HostInv J h) {ev : HostEvent E β} (ho : ev.Ordered h) :
    HostInv J (hostStep J h ev) ∧ ∀ o, VmStateStore.load J h.world.main = .ok o →
      ∃ o', VmStateStore.load J (hostStep J h ev).world.main = .ok o' ∧ o.Le o' := by
  cases ev with
  | start cfg engine readFault =>
    have hsame : HostInv J h ∧ ∀ o, VmStateStore.load J h.world.main = .ok o →
        ∃ o', VmStateStore.load J h.world.main = .ok o' ∧ o.Le o' :=
      ⟨hi, fun o hload => ⟨o, hload, VmOwnership.Le.refl _⟩⟩
    cases hp : h.process with
    | some c => simp only [hostStep, hp]; exact hsame
    | none =>
      cases readFault with
      | true => simp only [hostStep, hp]; exact hsame
      | false =>
        cases hload : VmStateStore.load J h.world.main with
        | error err => simp only [hostStep, hp, hload]; exact hload ▸ hsame
        | ok o =>
          simp only [hostStep, hp, hload]
          refine ⟨⟨hi.resized, ?_⟩, fun o' ho' => ⟨o', ho', VmOwnership.Le.refl _⟩⟩
          intro c hc
          simp only [Option.some.injEq] at hc
          subst hc
          exact ⟨hload, Controller.new_keyed cfg engine o, fun id i b h => by cases h⟩
  | event e torn =>
    cases hp : h.process with
    | none =>
      simp only [hostStep, hp, procEffects, procStep]
      exact ⟨⟨hi.resized, fun c hc => by cases hc⟩, fun o' ho' => ⟨o', ho', VmOwnership.Le.refl _⟩⟩
    | some c =>
      obtain ⟨o', hload, hle, hcalls⟩ := event_performed hJ hi hp (ho c hp) torn (c.step e).2.1.length
      rw [List.take_length] at hload hcalls
      simp only [hostStep, hp, procEffects]
      refine ⟨⟨fun call hcall => ⟨o', hload, hcalls call hcall⟩, fun c' hc' => ?_⟩,
        fun o hold => ⟨o', hload, hle o hold⟩⟩
      obtain ⟨hok, rfl⟩ := procStep_eq_some.1 hc'
      exact step_running hJ (hi.running c hp) (ho c hp) hok
  | crash e performed torn =>
    cases hp : h.process with
    | none =>
      simp only [hostStep, hp, procEffects, List.take_nil, World.performAll, List.foldl_nil]
      obtain ⟨hm, hs⟩ := tear_frame h.world torn ([] : List Effect)[performed]?
      refine ⟨⟨?_, fun c hc => by cases hc⟩, fun o' ho' => ⟨o', ?_, VmOwnership.Le.refl _⟩⟩
      · intro call hcall
        rw [hs] at hcall
        rw [hm]
        exact hi.resized call hcall
      · rw [hm]; exact ho'
    | some c =>
      obtain ⟨o', hload, hle, hcalls⟩ := event_performed hJ hi hp (ho c hp) torn performed
      simp only [hostStep, hp, procEffects]
      obtain ⟨hm, hs⟩ := tear_frame (h.world.performAll J torn ((c.step e).2.1.take performed)) torn
        (c.step e).2.1[performed]?
      refine ⟨⟨?_, fun c hc => by cases hc⟩, fun o hold => ⟨o', ?_, hle o hold⟩⟩
      · intro call hcall
        rw [hs] at hcall
        rw [hm]
        exact ⟨o', hload, hcalls call hcall⟩
      · rw [hm]; exact hload

/-- along a run the registry on disk only grows -/
theorem run_disk_le (hJ : J.RoundTrips) {h : Host E β} (hi : HostInv J h) {es : List (HostEvent E β)}
    (ho : Core.Along (hostStep J) (fun h ev => HostEvent.Ordered h ev) h es) {o : VmOwnership}
    (hload : VmStateStore.load J h.world.main = .ok o) :
    ∃ o', VmStateStore.load J (Core.run (hostStep J) h es).world.main = .ok o' ∧ o.Le o' := by
  induction es generalizing h o with
  | nil => exact ⟨o, hload, VmOwnership.Le.refl _⟩
  | cons ev es ih =>
    obtain ⟨hinv, hstep⟩ := hostStep_inv hJ hi ho.1
    obtain ⟨o1, hload1, hle1⟩ := hstep o hload
    obtain ⟨o2, hload2, hle2⟩ := ih hinv ho.2 hload1
    exact ⟨o2, hload2, hle1.trans hle2⟩

/-- a host before the first start of the daemon, with an arbitrary registry file -/
def Host.fresh (E : ScalingEngine) (main tmp : Option β) : Host E β := ⟨⟨main, tmp, []⟩, none⟩

theorem run_hostInv (hJ : J.RoundTrips) (main tmp : Option β) {es : List (HostEvent E β)}
    (ho : Core.Along (hostStep J) (fun h ev => HostEvent.Ordered h ev) (Host.fresh E main tmp) es) :
    HostInv J (Core.run (hostStep J) (Host.fresh E main tmp) es) := by
  have hfresh : HostInv J (Host.fresh E main tmp) := by
    refine ⟨?_, ?_⟩
    · intro call hc
      cases hc
    · intro c hc
      cases hc
  exact Core.run_inv (HostInv J) (fun h ev hi hev => (hostStep_inv hJ hi hev).1) hfresh ho

/-- ownership is immutable and durable: over every run of hosts, processes, crashes and restarts, (a) the registry on
disk stays disjoint and keeps every classification, and a running process holds the same registry, (b) every VM that
was ever resized automatically is managed on disk, (c) a VM that is unmanaged on disk is never resized automatically -/
theorem ownership_durable (J : Serde β) (hJ : J.RoundTrips) (main tmp : Option β) (pre post : List (HostEvent E β))
    (ho : Core.Along (hostStep J) (fun h ev => HostEvent.Ordered h ev) (Host.fresh E main tmp) (pre ++ post)) :
    let early := Core.run (hostStep J) (Host.fresh E main tmp) pre
    let late := Core.run (hostStep J) (Host.fresh E main tmp) (pre ++ post)
    (∀ o, VmStateStore.load J early.world.main = .ok o → Disjoint o.managedVms o.unmanagedVms ∧
      ∃ o', VmStateStore.load J late.world.main = .ok o' ∧ Disjoint o'.managedVms o'.unmanagedVms ∧
        ∀ vm b, o.classification vm = some b → o'.classification vm = some b) ∧
    (∀ c, late.process = some c → VmStateStore.load J late.world.main = .ok c.vmOwnership) ∧
    (∀ vm t, (vm, t) ∈ late.world.resized →
      ∃ o, VmStateStore.load J late.world.main = .ok o ∧ vm ∈ o.managedVms) ∧
    (∀ o, VmStateStore.load J early.world.main = .ok o → ∀ vm ∈ o.unmanagedVms, ∀ t, (vm, t) ∉ late.world.resized) := by
  intro early late
  have hsplit := (Core.along_append _ _ _ pre post).1 ho
  have hearly : HostInv J early := run_hostInv hJ main tmp hsplit.1
  have hlate : HostInv J late := run_hostInv hJ main tmp ho
  have hgrow : ∀ o, VmStateStore.load J early.world.main = .ok o →
      ∃ o', VmStateStore.load J late.world.main = .ok o' ∧ o.Le o' := by
    intro o hload
    have h := run_disk_le hJ hearly hsplit.2 hload
    rw [← Core.run_append] at h
    exact h
  refine ⟨fun o hload => ⟨load_disjoint hload, ?_⟩, fun c hc => (hlate.running c hc).disk,
    fun vm t hmem => hlate.resized (vm, t) hmem, ?_⟩
  · obtain ⟨o', hload', hle⟩ := hgrow o hload
    exact ⟨o', hload', load_disjoint hload', fun vm b hb => hle.classification (load_disjoint hload') hb⟩
  · intro o hload vm hvm t hmem
    obtain ⟨o', hload', hle⟩ := hgrow o hload
    obtain ⟨o'', hload'', hmanaged⟩ := hlate.resized (vm, t) hmem
    have heq : o'' = o' := Except.ok.inj (hload''.symm.trans hload')
    subst heq
    exact Finset.disjoint_left.1 (load_disjoint hload') hmanaged (hle.2 hvm)

/-- a file that holds the registry itself -/
def plainSerde : Serde VmOwnership := ⟨id, some⟩

/-- a crash between the resize of a freshly recorded VM and its report, and a restart: the VM is managed on disk -/
theorem ownership_durable_crash :
    let E := thresholdEngine ThresholdEngine.standard
    let busy : ThreadPoolSnapshot := { threadCount := 2, vcpuCount := 8, perThreadUtil := some 1 }
    let start : HostEvent E VmOwnership := .start {} (fun _ => none) false
    let sync : HostEvent E VmOwnership := .event (.sync [⟨"vm", 1⟩] ["vm"]) none
    let crash : HostEvent E VmOwnership := .crash (.tick (.single "vm" 0 0 (.ok busy))) 5 none
    ∃ o, VmStateStore.load plainSerde
      (Core.run (hostStep plainSerde) (Host.fresh E none none) ([start, sync] ++ [crash, start])).world.main = .ok o ∧
        "vm" ∈ o.managedVms := by
  intro E busy start sync crash
  have horder := @Controller.new_discovered E {} (fun _ => none) {} [⟨"vm", 1⟩] (List.nodup_singleton _)
  have ho : Core.Along (hostStep plainSerde) (fun h ev => HostEvent.Ordered h ev) (Host.fresh E none none)
      ([start, sync] ++ [crash, start]) := by
    refine ⟨trivial, ?_, ?_, trivial, trivial⟩
    · intro c hc
      obtain rfl := Option.some.inj hc
      exact horder.1
    · intro c hc
      obtain rfl := Option.some.inj hc
      exact horder.2
  exact (ownership_durable plainSerde (fun _ => rfl) none none [start, sync] [crash, start] ho).2.2.1 "vm" 3
    (by decide +kernel)

end Host

end IoThreadController
