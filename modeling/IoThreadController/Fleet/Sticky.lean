/-
Sticky manual overrides.

The history variable `overrides` remembers which VMs an operator has pinned: a request that succeeds with the sticky
flag pins its VM, one that succeeds without it releases the VM, and nothing else changes it.

- `Pinned`: the invariant. A tracked VM whose override is in force carries the flag in its record.
- `step_pinned`: every event keeps it, except a sync that adds a fresh record for a pinned VM.
- `overrides_respected`: in a run without such a sync no pinned VM is ever resized automatically.
- `resync_unpins`: such a sync always leaves a pinned VM in a record without the flag.
- `override_lost`: a failed refresh and the next discovery are enough for that.
-/
import IoThreadController.Fleet.Inventory
import IoThreadController.Model.Threshold

namespace IoThreadController

variable {E : ScalingEngine}

abbrev Overrides := VmId → Bool

/-- the overrides after one request with the given result -/
def noteRequest (result : Except ControllerError Unit) (vm : VmId) (sticky : Bool) (ov : Overrides) : Overrides :=
  match result with
  | .ok () => Function.update ov vm sticky
  | .error _ => ov

/-- the overrides after the requests of a request for all VMs, against the controller states they meet -/
def noteEach (c : Controller E) (threads : ℕ) (sticky : Bool) (backend : VmId → Except BackendClientError Unit) :
    List VmId → Overrides → Overrides
  | [], ov => ov
  | id :: ids, ov =>
    let r := c.handleSetThreadCount id threads sticky (backend id)
    noteEach r.1 threads sticky backend ids (noteRequest r.2.2 id sticky ov)

/-- the overrides in force after an event -/
def overrides : Option (Controller E) → Event → Overrides → Overrides
  | some c, .setThreadCount vm threads sticky backend, ov =>
    noteRequest (c.handleSetThreadCount vm threads sticky backend).2.2 vm sticky ov
  | some c, .setAllThreadCounts threads sticky backend order, ov =>
    noteEach c threads sticky backend (order.insertionSort (· ≤ ·)) ov
  | _, _, ov => ov

/-- no pinned VM is resized automatically by the event -/
def Respected (p : Option (Controller E) × Overrides) (e : Event) : Prop :=
  ∀ call ∈ (procEffects p.1 e).filterMap automaticResize, p.2 call.1 = false

instance (p : Option (Controller E) × Overrides) (e : Event) : Decidable (Respected p e) := by
  unfold Respected; infer_instance

/-- the event is not a sync that adds a fresh record for a pinned VM -/
def KeepsRecords : Option (Controller E) × Overrides → Event → Prop
  | (some c, ov), .sync discovered _ => ∀ d ∈ discovered, ov d.id = true → (c.instances d.id).isSome = true
  | _, _ => True

instance : ∀ (p : Option (Controller E) × Overrides) (e : Event), Decidable (KeepsRecords p e)
  | (some _, _), .sync .. => by unfold KeepsRecords; infer_instance
  | (some _, _), .tick _ | (some _, _), .setThreadCount .. | (some _, _), .setAllThreadCounts .. | (some _, _), .query
  | (none, _), _ => isTrue trivial

/-! ## The invariant -/

/-- a tracked VM whose override is in force carries the flag -/
def Pinned (c : Controller E) (ov : Overrides) : Prop :=
  ∀ id i, c.instances id = some i → ov id = true → i.status.manualScalingSticky = true

theorem tick_pinned {c : Controller E} {ov : Overrides} (h : Pinned c ov) (env : TickEnv) :
    Pinned (c.tick env).1 ov := by
  intro id i hi hov
  rcases c.tick_instances env id with ⟨-, hn⟩ | ⟨j, n, u, hj, hs⟩
  · rw [hn] at hi; simp at hi
  · rw [hs, Option.some.injEq] at hi
    subst hi
    obtain ⟨k, s, hk, -, rfl⟩ := Controller.refreshedRecord_some hj
    have hflag := h id k hk hov
    simpa using hflag

theorem sync_pinned {c : Controller E} {ov : Overrides} (h : Pinned c ov) (ds : List Discovered) (order : List VmId)
    (hk : ∀ d ∈ ds, ov d.id = true → (c.instances d.id).isSome = true) : Pinned (c.syncInstances ds order).1 ov := by
  intro id i hi hov
  rcases Controller.syncInstances_some hi with hold | ⟨hnone, d, hd, hid, -⟩
  · exact h id i hold hov
  · have htracked := hk d hd (by rw [hid]; exact hov)
    rw [hid, hnone] at htracked
    simp at htracked

theorem request_pinned {c : Controller E} {ov : Overrides} (h : Pinned c ov) (vm : VmId) (threads : ℕ) (sticky : Bool)
    (backend : Except BackendClientError Unit) :
    Pinned (c.handleSetThreadCount vm threads sticky backend).1
      (noteRequest (c.handleSetThreadCount vm threads sticky backend).2.2 vm sticky ov) := by
  rcases c.handleSetThreadCount_spec vm threads sticky backend with ⟨hsame, e, herr⟩ | ⟨j, hj, -, -, -, hput, hok⟩
  · rw [hsame, herr]; exact h
  · rw [hput, hok]
    intro id i hi hov
    by_cases hx : id = vm
    · subst hx
      simp only [Controller.putStatus, Function.update_self, Option.some.injEq] at hi
      simp only [noteRequest, Function.update_self] at hov
      rw [← hi]; exact hov
    · simp only [Controller.putStatus, Function.update_of_ne hx] at hi
      simp only [noteRequest, Function.update_of_ne hx] at hov
      exact h id i hi hov

theorem requests_pinned {c : Controller E} {ov : Overrides} (h : Pinned c ov) (threads : ℕ) (sticky : Bool)
    (backend : VmId → Except BackendClientError Unit) (ids : List VmId) :
    Pinned (c.setEach threads sticky backend ids).1 (noteEach c threads sticky backend ids ov) := by
  induction ids generalizing c ov with
  | nil => exact h
  | cons id ids ih =>
    have hrest := ih (request_pinned h id threads sticky (backend id))
    rw [Controller.setEach, noteEach]
    dsimp only
    split <;> exact hrest

/-- the invariant of a process with its history -/
def PinnedProc (p : Option (Controller E) × Overrides) : Prop := ∀ c, p.1 = some c → Pinned c p.2

theorem step_pinned {p : Option (Controller E) × Overrides} {e : Event} (h : PinnedProc p) (hk : KeepsRecords p e) :
    PinnedProc (Core.withHistory procStep overrides p e) := by
  obtain ⟨process, ov⟩ := p
  cases process with
  | none => intro c hc; cases hc
  | some c =>
    have hc : Pinned c ov := h c rfl
    intro c' hc'
    obtain ⟨-, rfl⟩ := procStep_eq_some.1 hc'
    cases e with
    | tick env => exact tick_pinned hc env
    | sync ds order => exact sync_pinned hc ds order hk
    | setThreadCount vm threads sticky backend => exact request_pinned hc vm threads sticky backend
    | setAllThreadCounts threads sticky backend order => exact requests_pinned hc threads sticky backend _
    | query => exact hc

/-- under the invariant no event resizes a pinned VM by itself -/
theorem respected_of_pinned {p : Option (Controller E) × Overrides} {e : Event} (h : PinnedProc p) : Respected p e := by
  obtain ⟨process, ov⟩ := p
  cases process with
  | none => intro call hcall; cases hcall
  | some c =>
    rintro ⟨vm, t⟩ hcall
    obtain ⟨effect, heffect, ha⟩ := List.mem_filterMap.1 hcall
    obtain ⟨env, -, x, -, -, i, hi, hlimits⟩ := Controller.step_resize heffect ha
    obtain ⟨j, s, hj, -, rfl⟩ := Controller.refreshedRecord_some hi
    have hflag : j.status.manualScalingSticky = false := by simpa using hlimits.notSticky
    by_contra hov
    have hpinned := h c rfl vm j hj (by simpa using hov)
    rw [hflag] at hpinned
    simp at hpinned

/-! ## Runs -/

/-- in every run in which no sync adds a fresh record for a pinned VM, no pinned VM is resized automatically -/
theorem overrides_respected (cfg : Config) (engine : E.State) (o : VmOwnership) (es : List Event)
    (hk : Core.Along (Core.withHistory procStep overrides) KeepsRecords
      (some (Controller.new cfg engine o : Controller E), fun _ => false) es) :
    Core.Along (Core.withHistory procStep overrides) Respected
      (some (Controller.new cfg engine o : Controller E), fun _ => false) es := by
  refine Core.along_of_inv PinnedProc (fun p e hp hke => step_pinned hp hke) (fun p e hp _ => respected_of_pinned hp)
    ?_ hk
  intro c hc id i hi
  obtain rfl := Option.some.inj hc
  cases hi

/-- a VM pinned while it is tracked, through failed requests, a tick and a repeated discovery -/
theorem overrides_respected_run :
    let E := thresholdEngine ThresholdEngine.standard
    let busy : ThreadPoolSnapshot := { threadCount := 2, vcpuCount := 8, perThreadUtil := some 1 }
    Core.Along (Core.withHistory procStep overrides) Respected
      (some (Controller.new {} (fun _ => none) {} : Controller E), fun _ => false)
      [.sync [⟨"vm", 1⟩] ["vm"], .tick (.single "vm" 0 0 (.ok busy)), .setThreadCount "vm" 4 true (.ok ()),
        .setThreadCount "vm" 9 false (.ok ()), .sync [⟨"vm", 2⟩] ["vm"], .tick (.single "vm" 0 0 (.ok busy))] :=
  overrides_respected _ _ _ _ (by decide +kernel)

/-- a sync that adds a fresh record for a pinned VM leaves that VM tracked, pinned and without the flag -/
theorem resync_unpins {c : Controller E} {ov : Overrides} {ds : List Discovered} {order : List VmId}
    (h : ¬ KeepsRecords (some c, ov) (.sync ds order)) :
    ∃ vm i, ov vm = true ∧ (c.syncInstances ds order).1.instances vm = some i ∧ i.status.manualScalingSticky = false := by
  simp only [KeepsRecords, not_forall] at h
  obtain ⟨d, hd, hov, hnone⟩ := h
  have hfound : (ds.find? fun x => x.id = d.id).isSome := by
    rw [List.find?_isSome]
    exact ⟨d, hd, by simp⟩
  obtain ⟨d', hd'⟩ := Option.isSome_iff_exists.1 hfound
  refine ⟨d.id, c.freshRecord d', hov, ?_, rfl⟩
  have hnone' : c.instances d.id = none := by simpa using hnone
  have hmem : d.id ∈ ds.map Discovered.id := List.mem_map_of_mem hd
  rw [Controller.syncInstances_instances, if_neg fun hs => hs.2 hmem, hnone', hd']
  rfl

/-- a failed refresh drops the record of a pinned VM, the next discovery adds it again, and the tick after that resizes
the VM -/
theorem override_lost :
    let E := thresholdEngine ThresholdEngine.standard
    let busy : ThreadPoolSnapshot := { threadCount := 2, vcpuCount := 8, perThreadUtil := some 1 }
    ¬ Core.Along (Core.withHistory procStep overrides) Respected
      (some (Controller.new {} (fun _ => none) {} : Controller E), fun _ => false)
      [.sync [⟨"vm", 1⟩] ["vm"], .tick (.single "vm" 0 0 (.ok busy)), .setThreadCount "vm" 2 true (.ok ()),
        .tick (.single "vm" 0 0 (.error "timeout")), .sync [⟨"vm", 2⟩] ["vm"],
        .tick (.single "vm" 0 0 (.ok busy))] := by
  decide +kernel

end IoThreadController
