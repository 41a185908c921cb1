/-
What discovery and the manual requests can do to the inventory.

- `syncInstances_instances`: a sync keeps a rediscovered record, adds a fresh record for an unknown VM, and drops a
  record that was not found.
- `handleSetThreadCount_spec`: a manual request either changes nothing or writes the count and the flag of one VM.
- `setEach_preserves`: what every single request keeps, the request for all VMs keeps.
- `step_resize`: only a tick resizes a pool by itself.
- `step_keyed`: every record stays under its own id.
-/
import IoThreadController.Fleet.Guards

namespace IoThreadController.Controller

variable {E : ScalingEngine}

/-! ## Discovery -/

/-- the record that a sync adds for a VM it does not know -/
def freshRecord (c : Controller E) (d : Discovered) : Instance :=
  { Instance.new d with
    status := { (Instance.new d).status with ownershipClassification := c.vmOwnership.classification d.id } }

/-- the controller after a sync added `d` -/
def addFresh (c : Controller E) (d : Discovered) : Controller E :=
  { c with engine := E.onInstanceAdded c.engine (c.freshRecord d) }.setInstance (c.freshRecord d)

theorem addDiscovered_known {c : Controller E} {d : Discovered} {i : Instance} (ds : List Discovered)
    (h : c.instances d.id = some i) :
    c.addDiscovered (d :: ds) =
      ((c.addDiscovered ds).1, .close d.client :: (c.addDiscovered ds).2.1, (c.addDiscovered ds).2.2) := by
  rw [addDiscovered, h]

theorem addDiscovered_unknown {c : Controller E} {d : Discovered} (ds : List Discovered)
    (h : c.instances d.id = none) :
    c.addDiscovered (d :: ds) =
      (((c.addFresh d).addDiscovered ds).1, ((c.addFresh d).addDiscovered ds).2.1,
        ((c.addFresh d).addDiscovered ds).2.2 + 1) := by
  rw [addDiscovered, h]; rfl

theorem addDiscovered_frame (c : Controller E) (ds : List Discovered) :
    (c.addDiscovered ds).1.cfg = c.cfg ∧ (c.addDiscovered ds).1.vmOwnership = c.vmOwnership ∧
      ∀ e ∈ (c.addDiscovered ds).2.1, e.isRead = true := by
  induction ds generalizing c with
  | nil => exact ⟨rfl, rfl, fun e he => by cases he⟩
  | cons d ds ih =>
    cases h : c.instances d.id with
    | some i =>
      rw [addDiscovered_known ds h]
      obtain ⟨h1, h2, h3⟩ := ih c
      refine ⟨h1, h2, ?_⟩
      intro e he
      rcases List.mem_cons.1 he with rfl | he
      · rfl
      · exact h3 e he
    | none =>
      rw [addDiscovered_unknown ds h]
      exact ih (c.addFresh d)

/-- an addition keeps every known record and adds a fresh one for the first report of an unknown VM -/
theorem addDiscovered_instances (c : Controller E) (ds : List Discovered) (id : VmId) :
    (c.addDiscovered ds).1.instances id =
      match c.instances id with
      | some i => some i
      | none => (ds.find? fun d => d.id = id).map c.freshRecord := by
  induction ds generalizing c with
  | nil => cases h : c.instances id <;> simp [addDiscovered, h]
  | cons d ds ih =>
    cases h : c.instances d.id with
    | some i =>
      rw [addDiscovered_known ds h]
      have hne : c.instances id = none → d.id ≠ id := by rintro hn rfl; rw [hn] at h; simp at h
      rw [ih c]
      cases hi : c.instances id with
      | some j => rfl
      | none => simp [hne hi]
    | none =>
      rw [addDiscovered_unknown ds h]
      dsimp only
      rw [ih (c.addFresh d)]
      by_cases hid : d.id = id
      · subst hid
        simp [addFresh, setInstance, freshRecord, Instance.new, h]
      · have hsame : (c.addFresh d).instances id = c.instances id :=
          Function.update_of_ne (Ne.symm hid) _ _
        rw [hsame]
        cases hi : c.instances id with
        | some j => rfl
        | none => simp only [List.find?_cons, hid, decide_false]; rfl

/-- the controller after a sync removed a stale VM -/
def dropRecord (c : Controller E) (id : VmId) : Controller E :=
  { c with instances := Function.update c.instances id none, engine := E.onInstanceRemoved c.engine id }

theorem dropRecord_self (c : Controller E) (id : VmId) : (c.dropRecord id).instances id = none :=
  Function.update_self _ _ _

theorem dropRecord_other (c : Controller E) {id x : VmId} (h : id ≠ x) :
    (c.dropRecord x).instances id = c.instances id :=
  Function.update_of_ne h _ _

theorem removeStale_untracked {c : Controller E} {x : VmId} (ids : List VmId) (h : c.instances x = none) :
    c.removeStale (x :: ids) = c.removeStale ids := by
  rw [removeStale, h]

theorem removeStale_tracked {c : Controller E} {x : VmId} {i : Instance} (ids : List VmId)
    (h : c.instances x = some i) :
    c.removeStale (x :: ids) = (((c.dropRecord x).removeStale ids).1,
      .close i.client :: ((c.dropRecord x).removeStale ids).2) := by
  rw [removeStale, h]
  rfl

theorem removeStale_frame (c : Controller E) (ids : List VmId) :
    (c.removeStale ids).1.cfg = c.cfg ∧ (c.removeStale ids).1.vmOwnership = c.vmOwnership ∧
      ∀ e ∈ (c.removeStale ids).2, e.isRead = true := by
  induction ids generalizing c with
  | nil => exact ⟨rfl, rfl, fun e he => by cases he⟩
  | cons x ids ih =>
    cases h : c.instances x with
    | none =>
      rw [removeStale_untracked ids h]
      exact ih c
    | some i =>
      rw [removeStale_tracked ids h]
      obtain ⟨h1, h2, h3⟩ := ih (c.dropRecord x)
      refine ⟨h1, h2, ?_⟩
      intro e he
      rcases List.mem_cons.1 he with rfl | he
      · rfl
      · exact h3 e he

/-- what is kept for each VM, and goes with its record, is gone for the stale VMs and as before for the others -/
theorem removeStale_at {α : Type} {kept : Controller E → VmId → Option α}
    (hself : ∀ {c : Controller E} {x}, (c.instances x).isSome = true → kept (c.dropRecord x) x = none)
    (hother : ∀ {c : Controller E} {x id}, id ≠ x → kept (c.dropRecord x) id = kept c id)
    (c : Controller E) (ids : List VmId) (id : VmId) :
    kept (c.removeStale ids).1 id = if id ∈ ids ∧ (c.instances id).isSome = true then none else kept c id := by
  induction ids generalizing c with
  | nil => simp [removeStale]
  | cons x ids ih =>
    cases h : c.instances x with
    | none =>
      rw [removeStale_untracked ids h, ih c]
      by_cases hx : id = x
      · subst hx; simp [h]
      · simp [hx]
    | some i =>
      rw [removeStale_tracked ids h, ih]
      by_cases hx : id = x
      · subst hx
        have hgone : kept (c.dropRecord id) id = none := hself (by simp [h])
        simp [h, hgone]
      · simp [hx, c.dropRecord_other hx, hother hx]

theorem removeStale_instances (c : Controller E) (ids : List VmId) (id : VmId) :
    (c.removeStale ids).1.instances id = if id ∈ ids then none else c.instances id := by
  rw [removeStale_at (fun _ => dropRecord_self _ _) (fun hx => dropRecord_other _ hx)]
  cases h : c.instances id <;> simp

theorem syncInstances_frame (c : Controller E) (ds : List Discovered) (order : List VmId) :
    (c.syncInstances ds order).1.cfg = c.cfg ∧ (c.syncInstances ds order).1.vmOwnership = c.vmOwnership ∧
      ∀ e ∈ (c.syncInstances ds order).2.1, e.isRead = true := by
  unfold syncInstances
  obtain ⟨h1, h2, h3⟩ := addDiscovered_frame c ds
  obtain ⟨g1, g2, g3⟩ :=
    removeStale_frame (c.addDiscovered ds).1 (order.filter fun id => id ∉ ds.map Discovered.id)
  refine ⟨g1.trans h1, g2.trans h2, ?_⟩
  intro e he
  rcases List.mem_append.1 he with he | he
  · exact h3 e he
  · exact g3 e he

theorem syncInstances_instances (c : Controller E) (ds : List Discovered) (order : List VmId) (id : VmId) :
    (c.syncInstances ds order).1.instances id =
      if id ∈ order ∧ id ∉ ds.map Discovered.id then none
      else
        match c.instances id with
        | some i => some i
        | none => (ds.find? fun d => d.id = id).map c.freshRecord := by
  unfold syncInstances
  dsimp only
  rw [removeStale_instances, addDiscovered_instances]
  simp only [List.mem_filter, decide_eq_true_eq]

/-- a record after a sync was there before, or is the fresh record of a VM that was not tracked -/
theorem syncInstances_some {c : Controller E} {ds : List Discovered} {order : List VmId} {id : VmId} {i : Instance}
    (h : (c.syncInstances ds order).1.instances id = some i) :
    c.instances id = some i ∨ c.instances id = none ∧ ∃ d ∈ ds, d.id = id ∧ i = c.freshRecord d := by
  rw [syncInstances_instances] at h
  split_ifs at h with hs
  cases hi : c.instances id with
  | some j => rw [hi] at h; exact Or.inl h
  | none =>
    rw [hi] at h
    obtain ⟨d, hd, rfl⟩ := Option.map_eq_some_iff.1 h
    have hid : d.id = id := by simpa using List.find?_some hd
    exact Or.inr ⟨rfl, d, List.mem_of_find?_eq_some hd, hid, rfl⟩

/-! ## Manual requests -/

/-- a manual request changes nothing, or the backend accepted a count within the vCPUs and the record took it over -/
theorem handleSetThreadCount_spec (c : Controller E) (vm : VmId) (threads : ℕ) (sticky : Bool)
    (backend : Except BackendClientError Unit) :
    ((c.handleSetThreadCount vm threads sticky backend).1 = c ∧
      ∃ e, (c.handleSetThreadCount vm threads sticky backend).2.2 = .error e) ∨
    ∃ i, c.instances vm = some i ∧ 0 < threads ∧ threads ≤ i.status.vcpuCount ∧ backend = .ok () ∧
      (c.handleSetThreadCount vm threads sticky backend).1 =
        c.putStatus vm i { i.status with threadCount := threads, manualScalingSticky := sticky } ∧
      (c.handleSetThreadCount vm threads sticky backend).2.2 = .ok () := by
  unfold handleSetThreadCount
  cases hi : c.instances vm with
  | none => exact Or.inl ⟨rfl, _, rfl⟩
  | some i =>
    dsimp only
    split_ifs with h0 hv
    · exact Or.inl ⟨rfl, _, rfl⟩
    · exact Or.inl ⟨rfl, _, rfl⟩
    · cases backend with
      | error e => exact Or.inl ⟨rfl, _, rfl⟩
      | ok u => exact Or.inr ⟨i, rfl, Nat.pos_of_ne_zero h0, not_lt.1 hv, rfl, rfl, rfl⟩

/-- a manual request uses the client of its VM only -/
theorem handleSetThreadCount_effects (c : Controller E) (vm : VmId) (threads : ℕ) (sticky : Bool)
    (backend : Except BackendClientError Unit) :
    ∀ e ∈ (c.handleSetThreadCount vm threads sticky backend).2.1,
      ∃ i, c.instances vm = some i ∧ e = .setThreadCount i.client vm threads .manual := by
  unfold handleSetThreadCount
  intro e he
  cases hi : c.instances vm with
  | none => rw [hi] at he; simp at he
  | some i =>
    rw [hi] at he
    dsimp only at he
    split_ifs at he with h0 hv
    · simp at he
    · simp at he
    · cases backend <;> exact ⟨i, rfl, List.mem_singleton.1 he⟩

theorem handleSetThreadCount_client {c : Controller E} {vm : VmId} {threads : ℕ} {sticky : Bool}
    {backend : Except BackendClientError Unit} {id : VmId} {i' : Instance}
    (h : (c.handleSetThreadCount vm threads sticky backend).1.instances id = some i') :
    ∃ i, c.instances id = some i ∧ i'.client = i.client := by
  rcases handleSetThreadCount_spec c vm threads sticky backend with ⟨hsame, -⟩ | ⟨i, hi, -, -, -, hput, -⟩
  · rw [hsame] at h
    exact ⟨i', h, rfl⟩
  · rw [hput] at h
    by_cases hx : id = vm
    · subst hx
      simp only [putStatus, Function.update_self, Option.some.injEq] at h
      subst h
      exact ⟨i, hi, rfl⟩
    · simp only [putStatus, Function.update_of_ne hx] at h
      exact ⟨i', h, rfl⟩

/-- what every single request keeps, the request for all VMs keeps -/
theorem setEach_preserves (P : Controller E → Prop) (threads : ℕ) (sticky : Bool)
    (backend : VmId → Except BackendClientError Unit)
    (h : ∀ c vm, P c → P (c.handleSetThreadCount vm threads sticky (backend vm)).1) {c : Controller E}
    (ids : List VmId) (hc : P c) : P (c.setEach threads sticky backend ids).1 := by
  induction ids generalizing c with
  | nil => exact hc
  | cons id ids ih =>
    rw [setEach]
    have hrest := ih (h c id hc)
    dsimp only
    split <;> exact hrest

theorem setEach_effects (c : Controller E) (threads : ℕ) (sticky : Bool)
    (backend : VmId → Except BackendClientError Unit) (ids : List VmId) :
    ∀ e ∈ (c.setEach threads sticky backend ids).2.1,
      ∃ vm i, c.instances vm = some i ∧ e = .setThreadCount i.client vm threads .manual := by
  induction ids generalizing c with
  | nil => intro e he; cases he
  | cons id ids ih =>
    intro e he
    have hcases : e ∈ (c.handleSetThreadCount id threads sticky (backend id)).2.1 ∨
        e ∈ ((c.handleSetThreadCount id threads sticky (backend id)).1.setEach threads sticky backend ids).2.1 := by
      rw [setEach] at he
      dsimp only at he
      split at he <;> exact List.mem_append.1 he
    rcases hcases with he | he
    · obtain ⟨i, hi, rfl⟩ := handleSetThreadCount_effects c id threads sticky (backend id) e he
      exact ⟨id, i, hi, rfl⟩
    · obtain ⟨vm, i', hi', rfl⟩ := ih _ e he
      obtain ⟨i, hi, hclient⟩ := handleSetThreadCount_client hi'
      exact ⟨vm, i, hi, by rw [hclient]⟩

theorem handleSetAllThreadCounts_preserves (P : Controller E → Prop) (threads : ℕ) (sticky : Bool)
    (backend : VmId → Except BackendClientError Unit)
    (h : ∀ c vm, P c → P (c.handleSetThreadCount vm threads sticky (backend vm)).1) {c : Controller E}
    (order : List VmId) (hc : P c) : P (c.handleSetAllThreadCounts threads sticky backend order).1 :=
  setEach_preserves P threads sticky backend h _ hc

/-! ## Events -/

/-- the events other than ticks neither resize a pool by themselves nor write the registry -/
theorem step_effects {c : Controller E} {ev : Event} (hev : ∀ env, ev ≠ .tick env) :
    ∀ e ∈ (c.step ev).2.1, automaticResize e = none ∧ ∀ op, e ≠ .fs op := by
  intro e he
  cases ev with
  | tick env => exact absurd rfl (hev env)
  | sync ds order =>
    have hr : e.isRead = true := (syncInstances_frame c ds order).2.2 e he
    refine ⟨(Effect.isRead_spec hr).1, ?_⟩
    rintro op rfl
    cases hr
  | setThreadCount vm threads sticky backend =>
    obtain ⟨i, -, rfl⟩ := handleSetThreadCount_effects c vm threads sticky backend e he
    exact ⟨rfl, fun op h => by cases h⟩
  | setAllThreadCounts threads sticky backend order =>
    obtain ⟨vm, i, -, rfl⟩ := setEach_effects c threads sticky backend _ e he
    exact ⟨rfl, fun op h => by cases h⟩
  | query => cases he

theorem automaticResize_some {e : Effect} {vm : VmId} {t : ℕ} (h : automaticResize e = some (vm, t)) :
    ∃ client, e = .setThreadCount client vm t .automatic := by
  cases e with
  | setThreadCount client id count origin =>
    cases origin with
    | automatic => cases h; exact ⟨client, rfl⟩
    | manual => cases h
  | getSnapshot client => cases h
  | close client => cases h
  | fs op => cases h
  | report id outcome => cases h

/-- an automatic resize happens in a tick, in an attempt that meets the limits -/
theorem step_resize {c : Controller E} {ev : Event} {e : Effect} {vm : VmId} {t : ℕ} (he : e ∈ (c.step ev).2.1)
    (ha : automaticResize e = some (vm, t)) :
    ∃ env, ev = .tick env ∧ ∃ x ∈ c.tickAttempts env, x.2.instanceId = vm ∧ ∃ i, c.refreshedRecord env vm = some i ∧
      WithinLimits c.cfg i.status x.2.action t (env.attempt vm).checkedAt := by
  by_cases hev : ∃ env, ev = .tick env
  · obtain ⟨env, rfl⟩ := hev
    obtain ⟨client, rfl⟩ := automaticResize_some ha
    obtain ⟨x, hx, hmem⟩ := mem_tick_resize he
    obtain ⟨hcfg, -, j, -, hrec, hj, -⟩ := tickAttempts_spec hx
    obtain ⟨rfl, -, i, hi, -, -, hlimits⟩ := attempt_resize hmem
    have hij : j = i := by rw [hi] at hj; exact (Option.some.inj hj).symm
    rw [hcfg] at hlimits
    exact ⟨env, rfl, x, hx, rfl, i, hij ▸ hrec, hlimits⟩
  · have hne : ∀ env, ev ≠ .tick env := fun env h => hev ⟨env, h⟩
    rw [(step_effects hne e he).1] at ha
    simp at ha

/-! ## Keys and iteration orders -/

/-- every record is stored under its own id -/
def Keyed (c : Controller E) : Prop := ∀ id i, c.instances id = some i → i.id = id

theorem refreshedRecord_id {c : Controller E} (hc : c.Keyed) {env : TickEnv} {id : VmId} {i : Instance}
    (h : c.refreshedRecord env id = some i) : i.id = id := by
  obtain ⟨j, s, hj, -, rfl⟩ := refreshedRecord_some h
  exact hc id j hj

/-- a refreshed VM stands in the iteration order of its tick -/
theorem refreshedRecord_mem {c : Controller E} {env : TickEnv} (ho : Enumerates env.order c.instances) {id : VmId}
    {i : Instance} (h : c.refreshedRecord env id = some i) : id ∈ env.order := by
  obtain ⟨j, s, hj, -, -⟩ := refreshedRecord_some h
  exact (ho.2 id).2 (by rw [hj]; rfl)

theorem putStatus_keyed {c : Controller E} (hc : c.Keyed) {id : VmId} {i : Instance} (hi : c.instances id = some i)
    (status : InstanceStatus) : (c.putStatus id i status).Keyed := by
  intro x j hj
  by_cases hx : x = id
  · subst hx
    simp only [putStatus, Function.update_self, Option.some.injEq] at hj
    subst hj
    exact hc x i hi
  · simp only [putStatus, Function.update_of_ne hx] at hj
    exact hc x j hj

theorem handleSetThreadCount_keyed {c : Controller E} (hc : c.Keyed) (vm : VmId) (threads : ℕ) (sticky : Bool)
    (backend : Except BackendClientError Unit) : (c.handleSetThreadCount vm threads sticky backend).1.Keyed := by
  rcases handleSetThreadCount_spec c vm threads sticky backend with ⟨h, -⟩ | ⟨i, hi, -, -, -, h, -⟩
  · rw [h]; exact hc
  · rw [h]; exact putStatus_keyed hc hi _

theorem step_keyed {c : Controller E} (hc : c.Keyed) (ev : Event) : (c.step ev).1.Keyed := by
  cases ev with
  | tick env =>
    intro id j hj
    rcases tick_instances c env id with ⟨-, hn⟩ | ⟨i, n, u, hi, hs⟩
    · change (c.tick env).1.instances id = some j at hj
      rw [hn] at hj; simp at hj
    · change (c.tick env).1.instances id = some j at hj
      rw [hs, Option.some.injEq] at hj
      subst hj
      have hid : i.id = id := refreshedRecord_id hc hi
      exact hid
  | sync ds order =>
    intro id j hj
    rcases syncInstances_some hj with h | ⟨-, d, -, hid, rfl⟩
    · exact hc id j h
    · exact hid
  | setThreadCount vm threads sticky backend => exact handleSetThreadCount_keyed hc vm threads sticky backend
  | setAllThreadCounts threads sticky backend order =>
    exact handleSetAllThreadCounts_preserves Keyed threads sticky backend
      (fun c vm h => handleSetThreadCount_keyed h vm threads sticky _) order hc
  | query => exact hc

end IoThreadController.Controller

namespace IoThreadController

variable {E : ScalingEngine}

/-- the event is a D-Bus request -/
def Event.isRequest : Event → Bool
  | .tick _ | .sync .. => false
  | .setThreadCount .. | .setAllThreadCounts .. | .query => true

/-- an event is a tick, a sync or a request -/
@[elab_as_elim]
theorem Event.requestCases {motive : Event → Prop} (tick : ∀ env, motive (.tick env))
    (sync : ∀ ds order, motive (.sync ds order)) (request : ∀ ev : Event, ev.isRequest = true → motive ev)
    (ev : Event) : motive ev := by
  cases ev with
  | tick env => exact tick env
  | sync ds order => exact sync ds order
  | setThreadCount vm threads sticky backend => exact request _ rfl
  | setAllThreadCounts threads sticky backend order => exact request _ rfl
  | query => exact request _ rfl

/-- the orders in an event are iteration orders of the inventory they iterate over -/
def Event.Ordered (c : Controller E) : Event → Prop
  | .tick env => Enumerates env.order c.instances
  | .sync discovered order => Enumerates order (c.addDiscovered discovered).1.instances
  | .setAllThreadCounts _ _ _ order => Enumerates order c.instances
  | .setThreadCount .. | .query => True

/-- the records of a first discovery are enumerated by the discovered ids, before and after its stale pass -/
theorem Controller.new_discovered (cfg : Config) (engine : E.State) (o : VmOwnership) {ds : List Discovered}
    (hn : (ds.map Discovered.id).Nodup) :
    Enumerates (ds.map Discovered.id) ((Controller.new cfg engine o : Controller E).addDiscovered ds).1.instances ∧
      Enumerates (ds.map Discovered.id)
        ((Controller.new cfg engine o : Controller E).syncInstances ds (ds.map Discovered.id)).1.instances := by
  refine ⟨⟨hn, ?_⟩, hn, ?_⟩
  · intro id
    rw [addDiscovered_instances]
    simp [Controller.new]
  · intro id
    rw [syncInstances_instances, if_neg fun h => h.2 h.1]
    simp [Controller.new]

theorem Controller.new_keyed (cfg : Config) (engine : E.State) (o : VmOwnership) : (Controller.new cfg engine o).Keyed :=
  fun id i h => by cases h

end IoThreadController
