/-
The backend clients of the inventory.

Every discovery pass makes a new client for every VM that it reports. A client is tracked with its VM until a refresh fails,
the VM is no longer discovered, or it turns out to be a duplicate.

- `tick_client`, `sync_client`, `request_client`: what one event does with one client. `step_client` puts them together.
- `ClientsInv`: the invariant. Every client that was ever discovered is tracked and not closed, or closed once and for all.
- `step_clientsInv`: every event over new clients keeps it.
-/
import IoThreadController.Core.Lifecycle
import IoThreadController.Fleet.Requests

namespace IoThreadController

variable {E : ScalingEngine}

/-- the client that an effect uses -/
def Effect.client : Effect → Option ClientId
  | .getSnapshot client | .setThreadCount client _ _ _ | .close client => some client
  | .fs _ | .report .. => none

/-- the clients that an event brings -/
def Event.clients : Event → List ClientId
  | .sync ds _ => ds.map Discovered.client
  | .tick _ | .setThreadCount .. | .setAllThreadCounts .. | .query => []

theorem Event.clients_request {ev : Event} (hreq : ev.isRequest = true) : ev.clients = [] := by
  cases ev with
  | tick env => rfl
  | sync ds order => simp [isRequest] at hreq
  | setThreadCount vm threads sticky backend => rfl
  | setAllThreadCounts threads sticky backend order => rfl
  | query => rfl

/-- the trace closes the client once, and does not use it afterwards -/
abbrev Closed (client : ClientId) (effects : List Effect) : Prop :=
  Core.Disposed Effect.client Effect.close client effects

/-- the effects of a trace on one client -/
abbrev clientUses (client : ClientId) (effects : List Effect) : List Effect := Core.uses Effect.client client effects

namespace Controller

/-- a tracked VM has the client -/
def Holds (c : Controller E) (client : ClientId) : Prop := ∃ id i, c.instances id = some i ∧ i.client = client

/-- no two tracked VMs share a client -/
def Distinct (c : Controller E) : Prop :=
  ∀ id id' i i', c.instances id = some i → c.instances id' = some i' → i.client = i'.client → id = id'

/-- every record of `c'` is a record of `c` with the same client -/
def Within (c' c : Controller E) : Prop :=
  ∀ id i', c'.instances id = some i' → ∃ i, c.instances id = some i ∧ i'.client = i.client

/-- the effects on the client keep it open with its VM, or close it for good and drop it -/
def Served (c' : Controller E) (client : ClientId) (effects : List Effect) : Prop :=
  (c'.Holds client ∧ Effect.close client ∉ effects) ∨ (¬ c'.Holds client ∧ Closed client effects)

variable {c : Controller E}

theorem Within.holds {c' : Controller E} (h : c'.Within c) {client : ClientId} (hholds : c'.Holds client) :
    c.Holds client := by
  obtain ⟨id, i', hi', rfl⟩ := hholds
  obtain ⟨i, hi, hclient⟩ := h id i' hi'
  exact ⟨id, i, hi, hclient.symm⟩

theorem Within.distinct {c' : Controller E} (h : c'.Within c) (hd : c.Distinct) : c'.Distinct := by
  intro id id' i' j' hi' hj' hclient
  obtain ⟨i, hi, hsame⟩ := h id i' hi'
  obtain ⟨j, hj, hsame'⟩ := h id' j' hj'
  apply hd id id' i j hi hj
  calc i.client = i'.client := hsame.symm
    _ = j'.client := hclient
    _ = j.client := hsame'

/-! ## Ticks -/

/-- a refreshed record has the client of the record before -/
theorem refreshedRecord_client {env : TickEnv} {id : VmId} {i' : Instance} (h : c.refreshedRecord env id = some i') :
    ∃ i, c.instances id = some i ∧ i'.client = i.client := by
  obtain ⟨i, snapshot, hi, -, rfl⟩ := refreshedRecord_some h
  exact ⟨i, hi, rfl⟩

/-- the effects of an attempt: a resize of a refreshed VM, and a report -/
theorem tickAttempts_effects {env : TickEnv} {x : Controller E × PlanEntry} (hx : x ∈ c.tickAttempts env) {e : Effect}
    (he : e ∈ (x.1.tryEntry env.attempt x.2).2.1) {client : ClientId} (hclient : e.client = some client) :
    (∃ id i, c.refreshedRecord env id = some i ∧ i.client = client) ∧ ∀ k, e ≠ .close k := by
  obtain ⟨-, -, i, t, hrec, hi, ht, -⟩ := tickAttempts_spec hx
  unfold tryEntry at he
  rw [applyEngineDecision_eq x.1 _ hi ht] at he
  rcases List.mem_append.1 he with he | he
  · obtain ⟨rfl, -⟩ := mem_attemptCalls he
    exact ⟨⟨_, i, hrec, Option.some.inj hclient⟩, fun k hk => by cases hk⟩
  · rw [List.mem_singleton.1 he] at hclient
    cases hclient

/-- the effects of a tick after its refreshes -/
def laterEffects (c : Controller E) (env : TickEnv) (ops : List FsOp) : List Effect :=
  ops.map .fs ++ (c.tickAttempts env).flatMap fun x => (x.1.tryEntry env.attempt x.2).2.1

theorem laterEffects_client {env : TickEnv} {ops : List FsOp} {e : Effect} (he : e ∈ c.laterEffects env ops)
    {client : ClientId} (hclient : e.client = some client) :
    (∃ id i, c.refreshedRecord env id = some i ∧ i.client = client) ∧ ∀ k, e ≠ .close k := by
  rcases List.mem_append.1 he with he | he
  · obtain ⟨op, -, rfl⟩ := List.mem_map.1 he
    cases hclient
  · obtain ⟨x, hx, he⟩ := List.mem_flatMap.1 he
    exact tickAttempts_effects hx he hclient

theorem tick_effects_refresh (c : Controller E) (env : TickEnv) :
    ∃ ops, (c.tick env).2.1 = c.refreshEffects env ++ c.laterEffects env ops := by
  obtain ⟨ops, hops⟩ := prepareTick_effects c env
  exact ⟨ops, by rw [tick_effects, hops, laterEffects, List.append_assoc]⟩

/-- what one refresh does with its client -/
def refreshOneEffects (c : Controller E) (env : TickEnv) (i : Instance) : List Effect :=
  .getSnapshot i.client :: if (c.refreshOne env i).2 then [] else [.close i.client]

theorem refreshEffects_eq (c : Controller E) (env : TickEnv) :
    c.refreshEffects env = (c.fleet env.order).flatMap (c.refreshOneEffects env) := by
  unfold refreshEffects refreshFleet fleet refreshOneEffects
  simp only [beginTick_instances, beginTick_refreshOne]

theorem refreshOneEffects_client {env : TickEnv} {i : Instance} {e : Effect} (he : e ∈ c.refreshOneEffects env i) :
    e.client = some i.client := by
  rcases List.mem_cons.1 he with rfl | he
  · rfl
  · split_ifs at he with h
    · simp at he
    · rw [List.mem_singleton.1 he]
      rfl

theorem mem_fleet {order : List VmId} {i : Instance} : i ∈ c.fleet order ↔ ∃ id ∈ order, c.instances id = some i :=
  List.mem_filterMap

theorem fleet_clients_nodup (hk : c.Keyed) (hd : c.Distinct) {order : List VmId} (hn : order.Nodup) :
    ((c.fleet order).map Instance.client).Nodup := by
  have hids : ((c.fleet order).map Instance.id).Nodup := (fleet_ids_sublist hk order).nodup hn
  refine List.Nodup.map_on ?_ hids.of_map
  intro i hi j hj hclient
  obtain ⟨id, -, hi⟩ := mem_fleet.1 hi
  obtain ⟨id', -, hj⟩ := mem_fleet.1 hj
  obtain rfl := hd id id' i j hi hj hclient
  exact Option.some.inj (hi.symm.trans hj)

/-- the refreshes of a tick use the client of a tracked VM in its own refresh only -/
theorem refreshEffects_uses (hk : c.Keyed) (hd : c.Distinct) {env : TickEnv} (ho : Enumerates env.order c.instances)
    {id : VmId} {i : Instance} (hi : c.instances id = some i) :
    clientUses i.client (c.refreshEffects env) = c.refreshOneEffects env i := by
  have hmem : i ∈ c.fleet env.order := mem_fleet.2 ⟨id, (ho.2 id).2 (by rw [hi]; rfl), hi⟩
  rw [refreshEffects_eq]
  exact Core.uses_flatMap (fleet_clients_nodup hk hd ho.1) (fun j _ e he => refreshOneEffects_client he) hmem

/-- a client after a tick was there before -/
theorem tick_holds {env : TickEnv} {id : VmId} {i' : Instance} (h : (c.tick env).1.instances id = some i') :
    ∃ i, c.instances id = some i ∧ i'.client = i.client ∧ (c.refreshedRecord env id).isSome = true := by
  rcases c.tick_instances env id with ⟨-, hn⟩ | ⟨j, n, u, hj, hs⟩
  · rw [hn] at h
    simp at h
  · rw [hs] at h
    cases h
    obtain ⟨i, hi, hclient⟩ := refreshedRecord_client hj
    exact ⟨i, hi, hclient, by rw [hj]; rfl⟩

theorem tick_within (c : Controller E) (env : TickEnv) : (c.tick env).1.Within c := by
  intro id i' hi'
  obtain ⟨i, hi, hclient, -⟩ := tick_holds hi'
  exact ⟨i, hi, hclient⟩

/-- the client of a refreshed VM stays open with it -/
theorem tick_client_refreshed (hk : c.Keyed) (hd : c.Distinct) {env : TickEnv} (ho : Enumerates env.order c.instances)
    {id : VmId} {i : Instance} (hi : c.instances id = some i) (hok : (c.refreshOne env i).2 = true) :
    (c.tick env).1.Holds i.client ∧ Effect.close i.client ∉ (c.tick env).2.1 := by
  constructor
  · have hrec : c.refreshedRecord env id = some (c.refreshOne env i).1 := by simp [refreshedRecord, hi, hok]
    rcases c.tick_instances env id with ⟨hn, -⟩ | ⟨j, n, u, hj, hs⟩
    · rw [hn] at hrec
      simp at hrec
    · obtain ⟨i', hi', hclient⟩ := refreshedRecord_client hj
      obtain rfl : i' = i := Option.some.inj (hi'.symm.trans hi)
      exact ⟨id, _, hs, hclient⟩
  · intro hclose
    obtain ⟨ops, heffects⟩ := c.tick_effects_refresh env
    rw [heffects] at hclose
    rcases List.mem_append.1 hclose with hclose | hclose
    · have hin : Effect.close i.client ∈ clientUses i.client (c.refreshEffects env) := Core.mem_uses.2 ⟨hclose, rfl⟩
      rw [refreshEffects_uses hk hd ho hi, refreshOneEffects, hok] at hin
      simp at hin
    · exact (laterEffects_client hclose rfl).2 _ rfl

/-- the client of a VM whose refresh fails is closed and dropped -/
theorem tick_client_failed (hk : c.Keyed) (hd : c.Distinct) {env : TickEnv} (ho : Enumerates env.order c.instances)
    {id : VmId} {i : Instance} (hi : c.instances id = some i) (hfail : (c.refreshOne env i).2 = false) :
    ¬ (c.tick env).1.Holds i.client ∧ Closed i.client (c.tick env).2.1 := by
  have hgone : ∀ id' i', c.instances id' = some i' → i'.client = i.client → c.refreshedRecord env id' = none := by
    intro id' i' hi' hclient
    obtain rfl := hd id' id i' i hi' hi hclient
    simp [refreshedRecord, hi, hfail]
  constructor
  · intro hholds
    obtain ⟨id', i'', hi'', hclient⟩ := hholds
    obtain ⟨i', hi', hsame, hsome⟩ := tick_holds hi''
    rw [hgone id' i' hi' (hsame.symm.trans hclient)] at hsome
    simp at hsome
  · obtain ⟨ops, heffects⟩ := c.tick_effects_refresh env
    have hlater : clientUses i.client (c.laterEffects env ops) = [] := by
      rw [Core.uses_eq_nil]
      intro e he heq
      obtain ⟨⟨id', i'', hrec, hclient⟩, -⟩ := laterEffects_client he heq
      obtain ⟨i', hi', hsame⟩ := refreshedRecord_client hrec
      rw [hgone id' i' hi' (hsame.symm.trans hclient)] at hrec
      simp at hrec
    rw [heffects]
    refine Core.Disposed.append ⟨[.getSnapshot i.client], by simp, ?_⟩ hlater
    calc clientUses i.client (c.refreshEffects env) = c.refreshOneEffects env i := refreshEffects_uses hk hd ho hi
      _ = [.getSnapshot i.client] ++ [.close i.client] := by simp [refreshOneEffects, hfail]

/-- a tick does not use a client of no tracked VM -/
theorem tick_client_other {client : ClientId} (hnot : ¬ c.Holds client) (env : TickEnv) :
    clientUses client (c.tick env).2.1 = [] := by
  obtain ⟨ops, heffects⟩ := c.tick_effects_refresh env
  rw [heffects, Core.uses_eq_nil]
  intro e he heq
  rcases List.mem_append.1 he with he | he
  · rw [refreshEffects_eq] at he
    obtain ⟨i, hi, he⟩ := List.mem_flatMap.1 he
    obtain ⟨id, -, hi⟩ := mem_fleet.1 hi
    rw [refreshOneEffects_client he] at heq
    exact hnot ⟨id, i, hi, Option.some.inj heq⟩
  · obtain ⟨⟨id, i', hrec, hclient⟩, -⟩ := laterEffects_client he heq
    obtain ⟨i, hi, hsame⟩ := refreshedRecord_client hrec
    exact hnot ⟨id, i, hi, hsame.symm.trans hclient⟩

theorem tick_client (hk : c.Keyed) (hd : c.Distinct) {env : TickEnv} (ho : Enumerates env.order c.instances)
    (client : ClientId) :
    (c.Holds client → (c.tick env).1.Served client (c.tick env).2.1) ∧
    (¬ c.Holds client → ¬ (c.tick env).1.Holds client ∧ clientUses client (c.tick env).2.1 = []) := by
  constructor
  · intro hholds
    obtain ⟨id, i, hi, rfl⟩ := hholds
    cases hok : (c.refreshOne env i).2 with
    | true => exact Or.inl (tick_client_refreshed hk hd ho hi hok)
    | false => exact Or.inr (tick_client_failed hk hd ho hi hok)
  · intro hnot
    exact ⟨mt (c.tick_within env).holds hnot, tick_client_other hnot env⟩

/-! ## Discovery -/

theorem clientUses_cons_of_ne {client : ClientId} {e : Effect} (effects : List Effect) (h : e.client ≠ some client) :
    clientUses client (e :: effects) = clientUses client effects := List.filter_cons_of_neg (by simpa using h)

/-- a close of another client changes nothing -/
theorem Served.cons {c' : Controller E} {client k : ClientId} {effects : List Effect} (h : c'.Served client effects)
    (hne : k ≠ client) : c'.Served client (.close k :: effects) := by
  rcases h with ⟨hholds, hopen⟩ | ⟨hgone, before, hbefore, huses⟩
  · refine Or.inl ⟨hholds, ?_⟩
    simpa [Ne.symm hne] using hopen
  · refine Or.inr ⟨hgone, before, hbefore, ?_⟩
    rw [← huses]
    exact clientUses_cons_of_ne effects fun h => hne (Option.some.inj h)

/-- a client that is dropped with one close -/
theorem Served.closed {c' : Controller E} {client : ClientId} {effects : List Effect} (hgone : ¬ c'.Holds client)
    (h : clientUses client effects = []) : c'.Served client (.close client :: effects) := by
  refine Or.inr ⟨hgone, [], by simp, ?_⟩
  refine Eq.trans (List.filter_cons_of_pos (by simp [Effect.client])) ?_
  exact congrArg (Effect.close client :: ·) h

theorem addDiscovered_closes {ds : List Discovered} {e : Effect} (he : e ∈ (c.addDiscovered ds).2.1) :
    ∃ d ∈ ds, e = .close d.client := by
  induction ds generalizing c with
  | nil => cases he
  | cons d ds ih =>
    cases h : c.instances d.id with
    | some i =>
      rw [addDiscovered_known ds h] at he
      rcases List.mem_cons.1 he with rfl | he
      · exact ⟨d, List.mem_cons_self, rfl⟩
      · obtain ⟨d', hd', rfl⟩ := ih he
        exact ⟨d', List.mem_cons_of_mem _ hd', rfl⟩
    | none =>
      rw [addDiscovered_unknown ds h] at he
      obtain ⟨d', hd', rfl⟩ := ih he
      exact ⟨d', List.mem_cons_of_mem _ hd', rfl⟩

theorem addDiscovered_uses (c : Controller E) {ds : List Discovered} {client : ClientId}
    (h : client ∉ ds.map Discovered.client) : clientUses client (c.addDiscovered ds).2.1 = [] := by
  rw [Core.uses_eq_nil]
  intro e he heq
  obtain ⟨d, hd, rfl⟩ := addDiscovered_closes he
  exact h (Option.some.inj heq ▸ List.mem_map_of_mem hd)

/-- a client after the additions was there before or belongs to a discovered VM that was not tracked -/
theorem addDiscovered_some {ds : List Discovered} {id : VmId} {i' : Instance}
    (h : (c.addDiscovered ds).1.instances id = some i') :
    c.instances id = some i' ∨ ∃ d ∈ ds, d.id = id ∧ i'.client = d.client := by
  rw [addDiscovered_instances] at h
  cases hi : c.instances id with
  | some i => rw [hi] at h; exact Or.inl h
  | none =>
    rw [hi] at h
    obtain ⟨d, hd, rfl⟩ := Option.map_eq_some_iff.1 h
    exact Or.inr ⟨d, List.mem_of_find?_eq_some hd, by simpa using List.find?_some hd, rfl⟩

theorem addDiscovered_not_holds {ds : List Discovered} {client : ClientId} (hnot : ¬ c.Holds client)
    (h : client ∉ ds.map Discovered.client) : ¬ (c.addDiscovered ds).1.Holds client := by
  intro hholds
  obtain ⟨id, i', hi', rfl⟩ := hholds
  rcases addDiscovered_some hi' with hi | ⟨d, hd, -, hclient⟩
  · exact hnot ⟨id, i', hi, rfl⟩
  · exact h (hclient ▸ List.mem_map_of_mem hd)

/-- a new client is tracked with its VM, or closed as a duplicate -/
theorem addDiscovered_client {ds : List Discovered} (hn : (ds.map Discovered.client).Nodup) {client : ClientId}
    (hnot : ¬ c.Holds client) (hmem : client ∈ ds.map Discovered.client) :
    (c.addDiscovered ds).1.Served client (c.addDiscovered ds).2.1 := by
  induction ds generalizing c with
  | nil => simp at hmem
  | cons d ds ih =>
    rw [List.map_cons, List.nodup_cons] at hn
    rw [List.map_cons, List.mem_cons] at hmem
    cases h : c.instances d.id with
    | some i =>
      rw [addDiscovered_known ds h]
      rcases hmem with rfl | hmem
      · exact Served.closed (addDiscovered_not_holds hnot hn.1) (c.addDiscovered_uses hn.1)
      · apply (ih hn.2 hnot hmem).cons
        intro hclient
        exact hn.1 (hclient ▸ hmem)
    | none =>
      rw [addDiscovered_unknown ds h]
      have hself : (c.addFresh d).instances d.id = some (c.freshRecord d) := Function.update_self _ _ _
      rcases hmem with rfl | hmem
      · refine Or.inl ⟨⟨d.id, c.freshRecord d, ?_, rfl⟩, ?_⟩
        · rw [addDiscovered_instances, hself]
        · exact Core.undisposed_of_uses rfl ((c.addFresh d).addDiscovered_uses hn.1)
      · apply ih hn.2 _ hmem
        intro hholds
        obtain ⟨id, i, hi, rfl⟩ := hholds
        by_cases hid : id = d.id
        · subst hid
          rw [hself] at hi
          cases hi
          exact hn.1 hmem
        · have hold : c.instances id = some i := (Function.update_of_ne hid _ _).symm.trans hi
          exact hnot ⟨id, i, hold, rfl⟩

theorem dropRecord_within (c : Controller E) (x : VmId) : (c.dropRecord x).Within c := by
  intro id i hi
  by_cases hid : id = x
  · subst hid
    rw [dropRecord_self] at hi
    simp at hi
  · exact ⟨i, (c.dropRecord_other hid).symm.trans hi, rfl⟩

/-- the client of a dropped VM is dropped with it -/
theorem dropRecord_client (hd : c.Distinct) {x : VmId} {i : Instance} (hx : c.instances x = some i) :
    ¬ (c.dropRecord x).Holds i.client := by
  intro hholds
  obtain ⟨id, j, hj, hclient⟩ := hholds
  obtain ⟨j', hj', hsame⟩ := c.dropRecord_within x id j hj
  obtain rfl := hd id x j' i hj' hx (hsame.symm.trans hclient)
  rw [dropRecord_self] at hj
  simp at hj

/-- a tracked client stays with its VM, or is closed when its VM is stale -/
theorem removeStale_client (hd : c.Distinct) (ids : List VmId) (client : ClientId) :
    (c.Holds client → (c.removeStale ids).1.Served client (c.removeStale ids).2) ∧
    (¬ c.Holds client → ¬ (c.removeStale ids).1.Holds client ∧ clientUses client (c.removeStale ids).2 = []) := by
  induction ids generalizing c with
  | nil =>
    refine ⟨fun h => Or.inl ⟨h, ?_⟩, fun h => ⟨h, rfl⟩⟩
    simp [removeStale]
  | cons x ids ih =>
    cases hx : c.instances x with
    | none =>
      rw [removeStale_untracked ids hx]
      exact ih hd
    | some i =>
      rw [removeStale_tracked ids hx]
      obtain ⟨hheld, hfree⟩ := ih ((c.dropRecord_within x).distinct hd)
      constructor
      · intro hholds
        obtain ⟨id, j, hj, rfl⟩ := hholds
        by_cases hid : id = x
        · subst hid
          obtain rfl : i = j := Option.some.inj (hx.symm.trans hj)
          obtain ⟨hafter, huses⟩ := hfree (dropRecord_client hd hx)
          exact Served.closed hafter huses
        · have hkept : (c.dropRecord x).Holds j.client := ⟨id, j, (c.dropRecord_other hid).trans hj, rfl⟩
          exact (hheld hkept).cons fun hclient => hid (hd x id i j hx hj hclient).symm
      · intro hnot
        obtain ⟨hafter, huses⟩ := hfree (mt (c.dropRecord_within x).holds hnot)
        refine ⟨hafter, ?_⟩
        rw [clientUses_cons_of_ne]
        · exact huses
        · intro heq
          exact hnot ⟨x, i, hx, Option.some.inj heq⟩

theorem removeStale_within (c : Controller E) (ids : List VmId) : (c.removeStale ids).1.Within c := by
  intro id i hi
  rw [removeStale_instances] at hi
  split_ifs at hi
  exact ⟨i, hi, rfl⟩

theorem addDiscovered_distinct (hd : c.Distinct) {ds : List Discovered} (hn : (ds.map Discovered.client).Nodup)
    (hnew : ∀ client ∈ ds.map Discovered.client, ¬ c.Holds client) : (c.addDiscovered ds).1.Distinct := by
  intro id id' i i' hi hi' hclient
  rcases addDiscovered_some hi with hold | ⟨d, hd1, rfl, hc⟩
  · rcases addDiscovered_some hi' with hold' | ⟨d', hd', rfl, hc'⟩
    · exact hd id id' i i' hold hold' hclient
    · exact (hnew _ (List.mem_map_of_mem hd') ⟨id, i, hold, hclient.trans hc'⟩).elim
  · rcases addDiscovered_some hi' with hold' | ⟨d', hd', rfl, hc'⟩
    · exact (hnew _ (List.mem_map_of_mem hd1) ⟨id', i', hold', hclient.symm.trans hc⟩).elim
    · have hsame : d.client = d'.client := hc.symm.trans (hclient.trans hc')
      rw [List.inj_on_of_nodup_map hn hd1 hd' hsame]

/-- what a sync does with one client -/
theorem sync_client (hd : c.Distinct) {ds : List Discovered} (hn : (ds.map Discovered.client).Nodup)
    (hnew : ∀ client ∈ ds.map Discovered.client, ¬ c.Holds client) (order : List VmId) (client : ClientId) :
    (c.Holds client ∨ client ∈ ds.map Discovered.client →
      (c.syncInstances ds order).1.Served client (c.syncInstances ds order).2.1) ∧
    (¬ c.Holds client → client ∉ ds.map Discovered.client →
      ¬ (c.syncInstances ds order).1.Holds client ∧ clientUses client (c.syncInstances ds order).2.1 = []) := by
  obtain ⟨hheld, hfree⟩ := removeStale_client (addDiscovered_distinct hd hn hnew)
    (order.filter fun id => id ∉ ds.map Discovered.id) client
  -- what the second loop leaves of a client that the first one left open
  have hserved : (c.addDiscovered ds).1.Holds client → Effect.close client ∉ (c.addDiscovered ds).2.1 →
      (c.syncInstances ds order).1.Served client (c.syncInstances ds order).2.1 := by
    intro hholds hopen
    rcases hheld hholds with ⟨hafter, hclose⟩ | ⟨hafter, hclosed⟩
    · exact Or.inl ⟨hafter, Core.Undisposed.append hopen hclose⟩
    · exact Or.inr ⟨hafter, Core.Undisposed.dispose hopen hclosed⟩
  constructor
  · intro h
    by_cases hmem : client ∈ ds.map Discovered.client
    · rcases addDiscovered_client hn (hnew client hmem) hmem with ⟨hholds, hopen⟩ | ⟨hgone, hclosed⟩
      · exact hserved hholds hopen
      · obtain ⟨hafter, huses⟩ := hfree hgone
        exact Or.inr ⟨hafter, hclosed.append huses⟩
    · obtain ⟨id, i, hi, rfl⟩ := h.resolve_right hmem
      apply hserved
      · exact ⟨id, i, by rw [addDiscovered_instances, hi], rfl⟩
      · exact Core.undisposed_of_uses rfl (c.addDiscovered_uses hmem)
  · intro hnot hmem
    obtain ⟨hafter, huses⟩ := hfree (addDiscovered_not_holds hnot hmem)
    exact ⟨hafter, Core.unused_append (c.addDiscovered_uses hmem) huses⟩

/-! ## Requests and events -/

/-- a request uses the clients of tracked VMs, and closes none -/
theorem request_effects {ev : Event} (hreq : ev.isRequest = true) {e : Effect} (he : e ∈ (c.step ev).2.1) :
    ∃ vm i threads, c.instances vm = some i ∧ e = .setThreadCount i.client vm threads .manual := by
  cases ev with
  | tick env => cases hreq
  | sync ds order => cases hreq
  | setThreadCount vm threads sticky backend =>
    obtain ⟨i, hi, rfl⟩ := handleSetThreadCount_effects c vm threads sticky backend e he
    exact ⟨vm, i, threads, hi, rfl⟩
  | setAllThreadCounts threads sticky backend order =>
    obtain ⟨vm, i, hi, rfl⟩ := setEach_effects c threads sticky backend _ e he
    exact ⟨vm, i, threads, hi, rfl⟩
  | query => cases he

theorem request_within {ev : Event} (hreq : ev.isRequest = true) : (c.step ev).1.Within c := by
  intro id i' hi'
  rcases c.request_record hreq id with ⟨-, hs⟩ | ⟨i, n, sticky, -, hi, hs⟩
  · exact ⟨i', hs ▸ hi', rfl⟩
  · rw [hs] at hi'
    cases hi'
    exact ⟨i, hi, rfl⟩

theorem request_holds {ev : Event} (hreq : ev.isRequest = true) (client : ClientId) :
    (c.step ev).1.Holds client ↔ c.Holds client := by
  constructor
  · exact (request_within hreq).holds
  · intro hholds
    obtain ⟨id, i, hi, rfl⟩ := hholds
    rcases c.request_record hreq id with ⟨-, hs⟩ | ⟨j, n, sticky, -, hj, hs⟩
    · exact ⟨id, i, hs.trans hi, rfl⟩
    · obtain rfl : j = i := Option.some.inj (hj.symm.trans hi)
      exact ⟨id, _, hs, rfl⟩

theorem request_client {ev : Event} (hreq : ev.isRequest = true) (client : ClientId) :
    (c.Holds client → (c.step ev).1.Served client (c.step ev).2.1) ∧
    (¬ c.Holds client → ¬ (c.step ev).1.Holds client ∧ clientUses client (c.step ev).2.1 = []) := by
  constructor
  · intro h
    refine Or.inl ⟨(request_holds hreq client).2 h, ?_⟩
    intro hclose
    obtain ⟨vm, i, threads, -, heq⟩ := request_effects hreq hclose
    cases heq
  · intro hnot
    refine ⟨mt (request_holds hreq client).1 hnot, ?_⟩
    rw [Core.uses_eq_nil]
    intro e he heq
    obtain ⟨vm, i, threads, hi, rfl⟩ := request_effects hreq he
    exact hnot ⟨vm, i, hi, Option.some.inj heq⟩

end Controller

open Controller

/-- the clients that the event brings are new: none is tracked, and none comes twice -/
def Event.BringsNew (c : Controller E) (ev : Event) : Prop :=
  ev.clients.Nodup ∧ ∀ client ∈ ev.clients, ¬ c.Holds client

/-- what one event does with one client: a tracked or new one is served, any other is left alone -/
theorem step_client {c : Controller E} (hk : c.Keyed) (hd : c.Distinct) {ev : Event} (ho : ev.Ordered c)
    (hnew : ev.BringsNew c) (client : ClientId) :
    (c.Holds client ∨ client ∈ ev.clients → (c.step ev).1.Served client (c.step ev).2.1) ∧
    (¬ c.Holds client → client ∉ ev.clients →
      ¬ (c.step ev).1.Holds client ∧ clientUses client (c.step ev).2.1 = []) := by
  cases ev using Event.requestCases with
  | tick env =>
    obtain ⟨h, hnot⟩ := tick_client hk hd ho client
    exact ⟨fun hx => h (hx.resolve_right List.not_mem_nil), fun hx _ => hnot hx⟩
  | sync ds order => exact sync_client hd hnew.1 hnew.2 order client
  | request ev hreq =>
    obtain ⟨h, hnot⟩ := request_client hreq client
    rw [Event.clients_request hreq]
    exact ⟨fun hx => h (hx.resolve_right List.not_mem_nil), fun hx _ => hnot hx⟩

theorem step_distinct {c : Controller E} (hd : c.Distinct) {ev : Event} (hnew : ev.BringsNew c) :
    (c.step ev).1.Distinct := by
  cases ev using Event.requestCases with
  | tick env => exact (c.tick_within env).distinct hd
  | sync ds order =>
    have hadded := addDiscovered_distinct hd hnew.1 hnew.2
    exact ((c.addDiscovered ds).1.removeStale_within _).distinct hadded
  | request ev hreq => exact (request_within hreq).distinct hd

/-! ## Runs -/

/-- the clients and the effects of a process so far -/
structure ClientHistory where
  /-- every client that discovery ever brought -/
  discovered : List ClientId := []
  effects : List Effect := []

def noteClients : Option (Controller E) → Event → ClientHistory → ClientHistory
  | none, _, h => h
  | some c, ev, h => ⟨h.discovered ++ ev.clients, h.effects ++ (c.step ev).2.1⟩

/-- a client is tracked and was never closed, or it is not tracked, was closed once, and was not used after that -/
def SettledClient (c : Controller E) (effects : List Effect) (client : ClientId) : Prop :=
  (c.Holds client ∧ Effect.close client ∉ effects) ∨ (¬ c.Holds client ∧ Closed client effects)

/-- discovery brings clients that it never brought before, and none twice -/
def NewClients (x : Option (Controller E) × ClientHistory) (ev : Event) : Prop :=
  ev.clients.Nodup ∧ ∀ client ∈ ev.clients, client ∉ x.2.discovered

instance (x : Option (Controller E) × ClientHistory) (ev : Event) : Decidable (NewClients x ev) := by
  unfold NewClients; infer_instance

/-- every discovered client is settled, and no other is tracked or used -/
def ClientsInv (x : Option (Controller E) × ClientHistory) : Prop :=
  ∀ c, x.1 = some c → c.Keyed ∧ c.Distinct ∧
    (∀ client ∈ x.2.discovered, SettledClient c x.2.effects client) ∧
    ∀ client ∉ x.2.discovered, ¬ c.Holds client ∧ clientUses client x.2.effects = []

theorem new_clientsInv (cfg : Config) (engine : E.State) (o : VmOwnership) :
    ClientsInv (some (Controller.new cfg engine o : Controller E), {}) := by
  intro c hc
  obtain rfl := Option.some.inj hc
  refine ⟨new_keyed cfg engine o, ?_, ?_, ?_⟩
  · intro id id' i i' hi
    cases hi
  · intro client hmem
    simp at hmem
  · intro client _
    refine ⟨?_, rfl⟩
    intro hholds
    obtain ⟨id, i, hi, -⟩ := hholds
    cases hi

theorem step_clientsInv {x : Option (Controller E) × ClientHistory} (h : ClientsInv x) {ev : Event}
    (ho : OrderedProc x.1 ev) (hnew : NewClients x ev) : ClientsInv (Core.withHistory procStep noteClients x ev) := by
  obtain ⟨process, history⟩ := x
  intro c' hc'
  rcases process with _ | c
  · cases hc'
  obtain ⟨-, rfl⟩ := procStep_eq_some.1 hc'
  obtain ⟨hk, hd, hsettled, hother⟩ := h c rfl
  have hbrings : ev.BringsNew c := ⟨hnew.1, fun client hmem => (hother client (hnew.2 client hmem)).1⟩
  refine ⟨step_keyed hk ev, step_distinct hd hbrings, ?_, ?_⟩
  · intro client hmem
    obtain ⟨hserved, hleft⟩ := step_client hk hd (ho c rfl) hbrings client
    change SettledClient (c.step ev).1 (history.effects ++ (c.step ev).2.1) client
    -- the client was open so far, and the event serves it
    have hopen : c.Holds client ∨ client ∈ ev.clients → Effect.close client ∉ history.effects →
        SettledClient (c.step ev).1 (history.effects ++ (c.step ev).2.1) client := by
      intro hin hopen
      rcases hserved hin with ⟨hholds, hclose⟩ | ⟨hgone, hclosed⟩
      · exact Or.inl ⟨hholds, Core.Undisposed.append hopen hclose⟩
      · exact Or.inr ⟨hgone, Core.Undisposed.dispose hopen hclosed⟩
    by_cases hold : client ∈ history.discovered
    · rcases hsettled client hold with ⟨hholds, hclose⟩ | ⟨hgone, hclosed⟩
      · exact hopen (Or.inl hholds) hclose
      · obtain ⟨hafter, huses⟩ := hleft hgone fun hin => hnew.2 client hin hold
        exact Or.inr ⟨hafter, hclosed.append huses⟩
    · have hin : client ∈ ev.clients := (List.mem_append.1 hmem).resolve_left hold
      exact hopen (Or.inr hin) (Core.undisposed_of_uses rfl (hother client hold).2)
  · intro client hnot
    have hold : client ∉ history.discovered := fun h => hnot (List.mem_append_left _ h)
    have hin : client ∉ ev.clients := fun h => hnot (List.mem_append_right _ h)
    obtain ⟨hfree, hunused⟩ := hother client hold
    obtain ⟨hafter, huses⟩ := (step_client hk hd (ho c rfl) hbrings client).2 hfree hin
    exact ⟨hafter, Core.unused_append hunused huses⟩

end IoThreadController
