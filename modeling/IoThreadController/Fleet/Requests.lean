/-
Manual requests seen from one VM, and processes over a fixed fleet.

- `Controller.takes`: the conditions under which a request for a VM succeeds.
- `Event.manualCount`: the count that an event sets by hand for a VM.
- `request_record`: what a request does to a record; `step_records` is the invariant rule for single records.
- `ordered_of_discovery`: after a first discovery, events that keep the fleet meet the order assumption.
-/
import IoThreadController.Fleet.Evaluation

namespace IoThreadController

variable {E : ScalingEngine}

namespace Controller

/-! ## One request -/

/-- a manual request for the VM succeeds -/
def takes (c : Controller E) (vm : VmId) (threads : ℕ) (backend : Except BackendClientError Unit) : Bool :=
  match c.instances vm, backend with
  | some i, .ok () => decide (0 < threads ∧ threads ≤ i.status.vcpuCount)
  | _, _ => false

theorem takes_iff {c : Controller E} {vm : VmId} {threads : ℕ} {backend : Except BackendClientError Unit} :
    c.takes vm threads backend = true ↔
      ∃ i, c.instances vm = some i ∧ 0 < threads ∧ threads ≤ i.status.vcpuCount ∧ backend = .ok () := by
  unfold takes
  rcases c.instances vm with _ | i
  · simp
  · rcases backend with e | u
    · simp
    · simp

/-- the record that a successful request leaves -/
def resized (i : Instance) (threads : ℕ) (sticky : Bool) : Instance :=
  { i with status := { i.status with threadCount := threads, manualScalingSticky := sticky } }

theorem handleSetThreadCount_instances (c : Controller E) (vm : VmId) (threads : ℕ) (sticky : Bool)
    (backend : Except BackendClientError Unit) (id : VmId) :
    (c.handleSetThreadCount vm threads sticky backend).1.instances id =
      if id = vm ∧ c.takes vm threads backend = true then (c.instances id).map fun i => resized i threads sticky
      else c.instances id := by
  by_cases ht : c.takes vm threads backend = true
  · obtain ⟨i, hi, hpos, hle, rfl⟩ := takes_iff.1 ht
    have hput : (c.handleSetThreadCount vm threads sticky (.ok ())).1 =
        c.putStatus vm i { i.status with threadCount := threads, manualScalingSticky := sticky } := by
      simp [handleSetThreadCount, hi, hpos.ne', not_lt.2 hle]
    rw [hput]
    by_cases hid : id = vm
    · subst hid
      simp [putStatus, ht, hi, resized]
    · simp [putStatus, hid]
  · rw [if_neg fun h => ht h.2]
    rcases c.handleSetThreadCount_spec vm threads sticky backend with ⟨hsame, -⟩ | ⟨i, hi, hpos, hle, hb, -⟩
    · rw [hsame]
    · exact absurd (takes_iff.2 ⟨i, hi, hpos, hle, hb⟩) ht

/-- a request neither tracks a VM nor changes a vCPU count, so it does not decide about the next request -/
theorem takes_after (c : Controller E) (vm : VmId) (threads : ℕ) (sticky : Bool)
    (backend : Except BackendClientError Unit) (id : VmId) (count : ℕ) (answer : Except BackendClientError Unit) :
    (c.handleSetThreadCount vm threads sticky backend).1.takes id count answer = c.takes id count answer := by
  unfold takes
  rw [handleSetThreadCount_instances]
  split_ifs with h
  · rcases c.instances id with _ | i
    · rfl
    · rcases answer with e | u
      · rfl
      · rfl
  · rfl

theorem setEach_instances (c : Controller E) (threads : ℕ) (sticky : Bool)
    (backend : VmId → Except BackendClientError Unit) (ids : List VmId) (id : VmId) :
    (c.setEach threads sticky backend ids).1.instances id =
      if id ∈ ids ∧ c.takes id threads (backend id) = true then (c.instances id).map fun i => resized i threads sticky
      else c.instances id := by
  induction ids generalizing c with
  | nil => simp [setEach]
  | cons vm ids ih =>
    have hrest : (c.setEach threads sticky backend (vm :: ids)).1.instances id =
        ((c.handleSetThreadCount vm threads sticky (backend vm)).1.setEach threads sticky backend ids).1.instances
          id := by
      rw [setEach]
      dsimp only
      split <;> rfl
    rw [hrest, ih, takes_after, handleSetThreadCount_instances]
    by_cases hid : id = vm
    · subst hid
      by_cases ht : c.takes id threads (backend id) = true
      · -- a second request for the VM writes the same values again
        have htwice : ((c.instances id).map fun i => resized i threads sticky).map (fun i => resized i threads sticky) =
            (c.instances id).map fun i => resized i threads sticky := by
          rw [Option.map_map]
          rfl
        simp [ht, htwice]
      · simp [ht]
    · simp [hid]

end Controller

/-! ## Events -/

/-- the count that the event sets by hand for the VM -/
def Event.manualCount (c : Controller E) (vm : VmId) : Event → Option ℕ
  | .setThreadCount id threads _ backend => if vm = id ∧ c.takes id threads backend = true then some threads else none
  | .setAllThreadCounts threads _ backend order =>
    if vm ∈ order ∧ c.takes vm threads (backend vm) = true then some threads else none
  | .tick _ | .sync .. | .query => none

/-- a request changes a record only when it is accepted -/
theorem Controller.request_record (c : Controller E) {ev : Event} (hreq : ev.isRequest = true) (id : VmId) :
    (ev.manualCount c id = none ∧ (c.step ev).1.instances id = c.instances id) ∨
      ∃ i n sticky, ev.manualCount c id = some n ∧ c.instances id = some i ∧
        (c.step ev).1.instances id = some (Controller.resized i n sticky) := by
  cases ev with
  | tick env => cases hreq
  | sync ds order => cases hreq
  | query => exact Or.inl ⟨rfl, rfl⟩
  | setThreadCount vm threads sticky backend =>
    have hstep : (c.step (.setThreadCount vm threads sticky backend)).1.instances id = _ :=
      c.handleSetThreadCount_instances vm threads sticky backend id
    rw [hstep]
    unfold Event.manualCount
    by_cases h : id = vm ∧ c.takes vm threads backend = true
    · obtain ⟨rfl, ht⟩ := h
      obtain ⟨i, hi, -⟩ := takes_iff.1 ht
      exact Or.inr ⟨i, threads, sticky, by simp [ht], hi, by simp [ht, hi]⟩
    · exact Or.inl ⟨if_neg h, if_neg h⟩
  | setAllThreadCounts threads sticky backend order =>
    have hperm : id ∈ order.insertionSort (· ≤ ·) ↔ id ∈ order := (List.perm_insertionSort _ order).mem_iff
    have hstep : (c.step (.setAllThreadCounts threads sticky backend order)).1.instances id = _ :=
      c.setEach_instances threads sticky backend (order.insertionSort (· ≤ ·)) id
    rw [hstep]
    simp only [hperm]
    unfold Event.manualCount
    by_cases h : id ∈ order ∧ c.takes id threads (backend id) = true
    · obtain ⟨i, hi, -⟩ := takes_iff.1 h.2
      exact Or.inr ⟨i, threads, sticky, if_pos h, hi, by rw [if_pos h, hi]; rfl⟩
    · exact Or.inl ⟨if_neg h, if_neg h⟩

/-- what fresh records have, and what refreshes and bookkeeping keep, every record has after every event -/
theorem Controller.step_records {c : Controller E} {P : VmId → Instance → Prop}
    (hfresh : ∀ d : Discovered, P d.id (c.freshRecord d))
    (hrefresh : ∀ id i refreshCgroup env snapshot, P id i →
      P id { i with status := applyThreadPoolSnapshot refreshCgroup env i.status snapshot })
    (hact : ∀ id i n u sticky, P id i → P id { i with
      status := { i.status with threadCount := n, cooldownUntil := u, manualScalingSticky := sticky } })
    (h : ∀ id i, c.instances id = some i → P id i) (ev : Event) :
    ∀ id i, (c.step ev).1.instances id = some i → P id i := by
  intro id i hi
  cases ev using Event.requestCases with
  | tick env =>
    rcases c.tick_instances env id with ⟨-, hn⟩ | ⟨j, n, u, hj, hs⟩
    · have hnone : (c.step (.tick env)).1.instances id = none := hn
      rw [hnone] at hi
      simp at hi
    · obtain ⟨k, snapshot, hk, -, rfl⟩ := refreshedRecord_some hj
      have hsome : (c.step (.tick env)).1.instances id = _ := hs
      rw [hsome] at hi
      cases hi
      apply hact id { k with status := applyThreadPoolSnapshot _ _ k.status snapshot } n u
      exact hrefresh id k _ _ snapshot (h id k hk)
  | sync ds order =>
    rcases syncInstances_some hi with hold | ⟨-, d, -, rfl, rfl⟩
    · exact h id i hold
    · exact hfresh d
  | request ev hreq =>
    rcases c.request_record hreq id with ⟨-, hs⟩ | ⟨j, n, sticky, -, hj, hs⟩
    · exact h id i (hs ▸ hi)
    · rw [hs] at hi
      cases hi
      exact hact id j n j.status.cooldownUntil sticky (h id j hj)

/-- a request neither adds nor drops a record -/
theorem Controller.request_isSome {c : Controller E} {ev : Event} (hreq : ev.isRequest = true) (id : VmId) :
    ((c.step ev).1.instances id).isSome = (c.instances id).isSome := by
  rcases c.request_record hreq id with ⟨-, hs⟩ | ⟨i, n, sticky, -, hi, hs⟩
  · rw [hs]
  · rw [hs, hi]
    rfl

/-! ## A fixed fleet -/

/-- the event enumerates the fleet in the given order, and neither adds nor drops a record -/
def Event.KeepsFleet (order : List VmId) : Event → Prop
  | .tick env => env.order = order ∧ ∀ id ∈ order, (env.refresh id).snapshot.isOk = true
  | .sync .. => False
  | .setAllThreadCounts _ _ _ o => o = order
  | .setThreadCount .. | .query => True

instance (order : List VmId) : ∀ ev : Event, Decidable (ev.KeepsFleet order)
  | .tick _ | .setAllThreadCounts .. => by unfold Event.KeepsFleet; infer_instance
  | .sync .. => isFalse id
  | .setThreadCount .. | .query => isTrue trivial

theorem Enumerates.of_isSome {α β : Type} {order : List VmId} {m : VmId → Option α} {m' : VmId → Option β}
    (h : Enumerates order m) (hsame : ∀ id, (m' id).isSome = (m id).isSome) : Enumerates order m' := by
  refine ⟨h.1, ?_⟩
  intro id
  rw [hsame]
  exact h.2 id

theorem Controller.keepsFleet_enumerates {c : Controller E} (hk : c.Keyed) {order : List VmId}
    (h : Enumerates order c.instances) {ev : Event} (hev : ev.KeepsFleet order) :
    Enumerates order (c.step ev).1.instances := by
  refine h.of_isSome ?_
  intro id
  cases ev using Event.requestCases with
  | tick env =>
    change ((c.tick env).1.instances id).isSome = _
    have hrec : (c.refreshedRecord env id).isSome = (c.instances id).isSome := by
      unfold refreshedRecord
      cases hi : c.instances id with
      | none => rfl
      | some i =>
        have hid : i.id = id := hk id i hi
        have hok := hev.2 id ((h.2 id).2 (by rw [hi]; rfl))
        rcases hs : (env.refresh id).snapshot with e | s
        · rw [hs] at hok; cases hok
        · have hr : c.refreshOne env i = _ := i.refreshState_ok _ (hid ▸ hs)
          simp [hr]
    rw [← hrec]
    rcases c.tick_instances env id with ⟨h1, h2⟩ | ⟨i, n, u, h1, h2⟩
    · rw [h1, h2]
    · rw [h1, h2]
      rfl
  | sync ds o => exact hev.elim
  | request ev hreq => exact request_isSome hreq id

theorem Event.KeepsFleet.ordered {c : Controller E} {order : List VmId} (h : Enumerates order c.instances) {ev : Event}
    (hev : ev.KeepsFleet order) : ev.Ordered c := by
  cases ev with
  | tick env =>
    obtain ⟨rfl, -⟩ := hev
    exact h
  | sync ds o => exact hev.elim
  | setThreadCount vm threads sticky backend => trivial
  | setAllThreadCounts threads sticky backend o =>
    obtain rfl : o = order := hev
    exact h
  | query => trivial

/-- after a first discovery, events that keep the fleet enumerate it in the discovered order -/
theorem Controller.ordered_of_discovery (cfg : Config) (engine : E.State) (o : VmOwnership) {ds : List Discovered}
    (hn : (ds.map Discovered.id).Nodup) {es : List Event} (hes : ∀ ev ∈ es, ev.KeepsFleet (ds.map Discovered.id)) :
    Core.Along procStep Controller.OrderedProc (some (Controller.new cfg engine o : Controller E))
      (.sync ds (ds.map Discovered.id) :: es) := by
  obtain ⟨hadded, hsynced⟩ := Controller.new_discovered cfg engine o hn
  refine ⟨?_, ?_⟩
  · intro c hc
    obtain rfl := Option.some.inj hc
    exact hadded
  have hsteps := Core.along_of_forall procStep
    (procStep (some (Controller.new cfg engine o : Controller E)) (.sync ds (ds.map Discovered.id))) hes
  refine Core.along_of_inv
    (fun p => ∀ c : Controller E, p = some c → c.Keyed ∧ Enumerates (ds.map Discovered.id) c.instances) ?_ ?_ ?_ hsteps
  · intro p ev hp hev c' hc'
    rcases p with _ | c
    · cases hc'
    · obtain ⟨-, rfl⟩ := procStep_eq_some.1 hc'
      obtain ⟨hk, henum⟩ := hp c rfl
      exact ⟨step_keyed hk ev, keepsFleet_enumerates hk henum hev⟩
  · intro p ev hp hev c hc
    exact hev.ordered (hp c hc).2
  · intro c hc
    obtain ⟨-, rfl⟩ := procStep_eq_some.1 hc
    exact ⟨step_keyed (new_keyed cfg engine o) _, hsynced⟩

end IoThreadController
