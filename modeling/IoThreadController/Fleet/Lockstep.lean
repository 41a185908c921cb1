/-
Inventory, engine state and clients move together.

- `Lockstep`: the invariant. The threshold engine has state for exactly the tracked VMs. `step_lockstep`: every event keeps
  it.
- `sync_ids`, `sync_keeps`: a sync tracks exactly the discovered VMs, and keeps what it had of them.
- `step_returned`: a VM that an event starts to track has the engine state of a new VM.
- `moves_in_lockstep`: all of this along every run, together with the clients, each of which is tracked and open, or closed
  once and for all.
-/
import IoThreadController.Fleet.Clients

namespace IoThreadController

variable {T : ThresholdEngine}

namespace Controller

/-- the engine has state for exactly the tracked VMs -/
def Lockstep (c : Controller (thresholdEngine T)) : Prop :=
  ∀ id, (c.engineState id).isSome = (c.instances id).isSome

variable {c : Controller (thresholdEngine T)}

theorem Lockstep.sourced (h : c.Lockstep) : c.Sourced := by
  intro id hnone
  have hsame := h id
  rw [hnone] at hsame
  simpa using hsame

/-! ## Discovery -/

theorem addDiscovered_lockstep (h : c.Lockstep) (ds : List Discovered) : (c.addDiscovered ds).1.Lockstep := by
  induction ds generalizing c with
  | nil => exact h
  | cons d ds ih =>
    cases hd : c.instances d.id with
    | some i =>
      rw [addDiscovered_known ds hd]
      exact ih h
    | none =>
      rw [addDiscovered_unknown ds hd]
      apply ih
      intro id
      by_cases hid : id = d.id
      · subst hid
        have hstate : (c.addFresh d).engineState d.id = some (c.stateOf d.id) := Function.update_self _ _ _
        have hrecord : (c.addFresh d).instances d.id = some (c.freshRecord d) := Function.update_self _ _ _
        rw [hstate, hrecord]
        rfl
      · have hstate : (c.addFresh d).engineState id = c.engineState id := Function.update_of_ne hid _ _
        have hrecord : (c.addFresh d).instances id = c.instances id := Function.update_of_ne hid _ _
        rw [hstate, hrecord]
        exact h id

theorem sync_lockstep (h : c.Lockstep) (ds : List Discovered) (order : List VmId) :
    (c.syncInstances ds order).1.Lockstep := by
  intro id
  have hadded := addDiscovered_lockstep h ds id
  have hstate : (c.syncInstances ds order).1.engineState id = _ :=
    removeStale_state (c.addDiscovered ds).1 (order.filter fun id => id ∉ ds.map Discovered.id) id
  have hrecord : (c.syncInstances ds order).1.instances id = _ :=
    removeStale_instances (c.addDiscovered ds).1 (order.filter fun id => id ∉ ds.map Discovered.id) id
  rw [hstate, hrecord]
  by_cases hstale : id ∈ order.filter fun id => id ∉ ds.map Discovered.id
  · rw [if_pos hstale]
    by_cases htracked : ((c.addDiscovered ds).1.instances id).isSome = true
    · rw [if_pos ⟨hstale, htracked⟩]
      rfl
    · rw [if_neg fun hx => htracked hx.2, hadded]
      simpa using htracked
  · rw [if_neg hstale, if_neg fun hx => hstale hx.1]
    exact hadded

/-- after a sync exactly the discovered VMs are tracked -/
theorem sync_ids {E : ScalingEngine} {c : Controller E} {ds : List Discovered} {order : List VmId}
    (ho : Enumerates order (c.addDiscovered ds).1.instances) (id : VmId) :
    ((c.syncInstances ds order).1.instances id).isSome = true ↔ id ∈ ds.map Discovered.id := by
  rw [syncInstances_instances]
  have hfound : id ∈ ds.map Discovered.id ↔ (ds.find? fun d => d.id = id).isSome = true := by
    rw [List.find?_isSome]
    simp
  have hadded := ho.2 id
  rw [addDiscovered_instances] at hadded
  cases hi : c.instances id with
  | some i =>
    rw [hi] at hadded
    by_cases hmem : id ∈ ds.map Discovered.id
    · rw [if_neg fun hx => hx.2 hmem]
      exact iff_of_true rfl hmem
    · rw [if_pos ⟨hadded.2 rfl, hmem⟩]
      exact iff_of_false (by simp) hmem
  | none =>
    by_cases hmem : id ∈ ds.map Discovered.id
    · rw [if_neg fun hx => hx.2 hmem]
      simp
    · refine iff_of_false ?_ hmem
      have hnone : (ds.find? fun d => d.id = id) = none := by
        rw [← Option.not_isSome_iff_eq_none, ← hfound]
        exact hmem
      split_ifs with hstale
      · simp
      · simp [hnone]

/-- a sync keeps the record and the engine state of a VM that it discovers again -/
theorem sync_keeps {ds : List Discovered} (order : List VmId) {id : VmId} {i : Instance} (hi : c.instances id = some i)
    (hmem : id ∈ ds.map Discovered.id) :
    (c.syncInstances ds order).1.instances id = some i ∧
      (c.syncInstances ds order).1.engineState id = c.engineState id := by
  constructor
  · rw [syncInstances_instances, if_neg fun hx => hx.2 hmem, hi]
  · have hstate : (c.syncInstances ds order).1.engineState id = _ :=
      removeStale_state (c.addDiscovered ds).1 (order.filter fun id => id ∉ ds.map Discovered.id) id
    have hlive : ¬ (id ∈ (order.filter fun id => id ∉ ds.map Discovered.id) ∧
        ((c.addDiscovered ds).1.instances id).isSome = true) := by
      intro hx
      have hnot := (List.mem_filter.1 hx.1).2
      simp only [decide_eq_true_eq] at hnot
      exact hnot hmem
    rw [hstate, if_neg hlive]
    rcases addDiscovered_state c ds id with hsame | ⟨hnone, -⟩
    · exact hsame
    · rw [hi] at hnone
      simp at hnone

theorem addDiscovered_enumerates {E : ScalingEngine} {c : Controller E} {order : List VmId}
    (h : Enumerates order c.instances) (ds : List Discovered) :
    Enumerates (ds.map Discovered.id ∪ order) (c.addDiscovered ds).1.instances := by
  refine ⟨List.Nodup.union _ h.1, ?_⟩
  intro id
  rw [List.mem_union_iff, h.2 id, addDiscovered_instances]
  cases hi : c.instances id with
  | some i => simp
  | none => simp

/-- after a sync the discovered ids enumerate the inventory -/
theorem sync_enumerates {E : ScalingEngine} {c : Controller E} {ds : List Discovered} {order : List VmId}
    (ho : Enumerates order (c.addDiscovered ds).1.instances) :
    Enumerates (ds.map Discovered.id).dedup (c.syncInstances ds order).1.instances := by
  refine ⟨List.nodup_dedup _, ?_⟩
  intro id
  rw [List.mem_dedup]
  exact (sync_ids ho id).symm

/-! ## Ticks and requests -/

theorem tick_lockstep (h : c.Lockstep) (hk : c.Keyed) {env : TickEnv} (ho : Enumerates env.order c.instances)
    (hok : (c.tick env).2.2 = .ok ()) : (c.tick env).1.Lockstep := by
  intro id
  cases hrec : c.refreshedRecord env id with
  | none =>
    have hgone : (c.tick env).1.instances id = none := by
      rcases c.tick_instances env id with ⟨-, hn⟩ | ⟨i, n, u, hi, -⟩
      · exact hn
      · rw [hrec] at hi
        simp at hi
    rw [tick_sourced h.sourced hk ho hok id hgone, hgone]
    rfl
  | some i =>
    have htracked : ((c.tick env).1.instances id).isSome = true := by
      rw [tick_record hk hrec]
      rfl
    have hbefore : (c.engineState id).isSome = true := by
      obtain ⟨j, s, hj, -, -⟩ := refreshedRecord_some hrec
      rw [h id, hj]
      rfl
    have hdecided : ((c.decidedTick env).1.engineState id).isSome = true := by
      rw [decided_state id hk ho]
      cases c.evaluation env id with
      | some r => rfl
      | none =>
        dsimp only
        rw [prepared_state_refreshed hk ho hrec]
        exact hbefore
    rw [htracked, tick_state id hok]
    cases c.tickOutcome env id with
    | none => exact hdecided
    | some o => simpa using hdecided

theorem step_lockstep (h : c.Lockstep) (hk : c.Keyed) {ev : Event} (ho : ev.Ordered c)
    (hok : (c.step ev).2.2 = .ok ()) : (c.step ev).1.Lockstep := by
  cases ev using Event.requestCases with
  | tick env => exact tick_lockstep h hk ho hok
  | sync ds order => exact sync_lockstep h ds order
  | request ev hreq =>
    intro id
    rw [request_state hreq, request_isSome hreq]
    exact h id

/-- a VM that an event starts to track has the engine state of a new VM -/
theorem step_returned (h : c.Lockstep) {ev : Event} {id : VmId} (hnone : c.instances id = none)
    (hsome : ((c.step ev).1.instances id).isSome = true) : (c.step ev).1.engineState id = some .new := by
  cases ev using Event.requestCases with
  | tick env =>
    obtain ⟨i', hi'⟩ := Option.isSome_iff_exists.1 hsome
    obtain ⟨i, hi, -⟩ := tick_holds hi'
    rw [hnone] at hi
    simp at hi
  | sync ds order =>
    have hafter : ((c.syncInstances ds order).1.engineState id).isSome = true := by
      rw [sync_lockstep h ds order id]
      exact hsome
    change (c.syncInstances ds order).1.engineState id = some .new
    rcases sync_state id h.sourced ds order with hs | ⟨-, hs⟩ | hs
    · rw [hs, h.sourced id hnone] at hafter
      simp at hafter
    · exact hs
    · rw [hs] at hafter
      simp at hafter
  | request ev hreq =>
    rw [request_isSome hreq, hnone] at hsome
    simp at hsome

theorem new_lockstep (cfg : Config) (o : VmOwnership) :
    (Controller.new cfg (fun _ => none) o : Controller (thresholdEngine T)).Lockstep := fun _ => rfl

end Controller

open Controller

/-! ## Runs -/

/-- the client was closed exactly once, and nothing used it after that -/
def ClosedOnce (client : ClientId) (effects : List Effect) : Prop :=
  effects.count (.close client) = 1 ∧
    ∀ first rest, effects = first ++ .close client :: rest → ∀ e ∈ rest, e.client ≠ some client

theorem Closed.once {client : ClientId} {effects : List Effect} (h : Closed client effects) :
    ClosedOnce client effects := by
  refine ⟨Core.Disposed.count rfl h, ?_⟩
  intro first rest heq
  exact Core.uses_eq_nil.1 (Core.Disposed.final rfl h heq)

/-- what an event does with the inventory, the engine state and the clients of a process -/
structure MovesTogether (x : Option (Controller (thresholdEngine T)) × ClientHistory) (ev : Event) : Prop where
  engine : ∀ c', (Core.withHistory procStep noteClients x ev).1 = some c' → c'.Lockstep
  discovered : ∀ c ds order, x.1 = some c → ev = .sync ds order →
    ∀ id, ((c.step ev).1.instances id).isSome = true ↔ id ∈ ds.map Discovered.id
  rediscovered : ∀ c ds order, x.1 = some c → ev = .sync ds order → ∀ id i, c.instances id = some i →
    id ∈ ds.map Discovered.id →
      (c.step ev).1.instances id = some i ∧ (c.step ev).1.engineState id = c.engineState id
  returned : ∀ c, x.1 = some c → ∀ id, c.instances id = none → ((c.step ev).1.instances id).isSome = true →
    (c.step ev).1.engineState id = some .new
  clients : ∀ c', (Core.withHistory procStep noteClients x ev).1 = some c' →
    ∀ client ∈ (Core.withHistory procStep noteClients x ev).2.discovered,
      (c'.Holds client ∧ Effect.close client ∉ (Core.withHistory procStep noteClients x ev).2.effects) ∨
      (¬ c'.Holds client ∧ ClosedOnce client (Core.withHistory procStep noteClients x ev).2.effects)

/-- the invariant of a process with its clients -/
def LockstepInv (x : Option (Controller (thresholdEngine T)) × ClientHistory) : Prop :=
  ClientsInv x ∧ ∀ c, x.1 = some c → c.Lockstep

theorem step_lockstepInv {x : Option (Controller (thresholdEngine T)) × ClientHistory} (h : LockstepInv x) {ev : Event}
    (ho : OrderedProc x.1 ev) (hnew : NewClients x ev) : LockstepInv (Core.withHistory procStep noteClients x ev) := by
  refine ⟨step_clientsInv h.1 ho hnew, ?_⟩
  obtain ⟨process, history⟩ := x
  intro c' hc'
  rcases process with _ | c
  · cases hc'
  · obtain ⟨hok, rfl⟩ := procStep_eq_some.1 hc'
    exact step_lockstep (h.2 c rfl) (h.1 c rfl).1 (ho c rfl) hok

/-- in every run of the daemon with the threshold engine, the engine has state for exactly the tracked VMs, a sync tracks
exactly what it discovers and keeps what it had, a VM that comes back starts afresh, and every client is tracked and open or
closed once and never used again -/
theorem moves_in_lockstep (cfg : Config) (o : VmOwnership) {es : List Event}
    (henv : Core.Along (Core.withHistory procStep noteClients) (fun x ev => OrderedProc x.1 ev ∧ NewClients x ev)
      (some (Controller.new cfg (fun _ => none) o : Controller (thresholdEngine T)), {}) es) :
    Core.Along (Core.withHistory procStep noteClients) MovesTogether
      (some (Controller.new cfg (fun _ => none) o : Controller (thresholdEngine T)), {}) es := by
  apply Core.along_of_inv LockstepInv _ _ _ henv
  · intro x ev hx hev
    exact step_lockstepInv hx hev.1 hev.2
  · intro x ev hx hev
    have hafter := step_lockstepInv hx hev.1 hev.2
    refine ⟨hafter.2, ?_, ?_, ?_, ?_⟩
    · intro c ds order hc hsync
      subst hsync
      exact sync_ids (hev.1 c hc)
    · intro c ds order hc hsync id i hi hmem
      subst hsync
      exact sync_keeps order hi hmem
    · intro c hc id hnone hsome
      exact step_returned (hx.2 c hc) hnone hsome
    · intro c' hc' client hmem
      exact ((hafter.1 c' hc').2.2.1 client hmem).imp_right fun hx => ⟨hx.1, hx.2.once⟩
  · refine ⟨new_clientsInv cfg _ o, ?_⟩
    intro c hc
    obtain rfl := Option.some.inj hc
    exact new_lockstep cfg o

/-- a VM that is discovered twice in one pass, disappears, comes back, and loses its connection -/
def comesAndGoes : List Event :=
  [.sync [⟨"vm", 1⟩, ⟨"vm", 2⟩] ["vm"], .sync [] ["vm"], .sync [⟨"vm", 3⟩] ["vm"],
    .tick (.single "vm" 0 0 (.error "connection closed"))]

theorem comesAndGoes_ordered (E : ScalingEngine) (cfg : Config) (engine : E.State) (o : VmOwnership) :
    Core.Along procStep OrderedProc (some (Controller.new cfg engine o : Controller E)) comesAndGoes := by
  have h₀ : Enumerates [] (Controller.new cfg engine o : Controller E).instances :=
    ⟨List.nodup_nil, fun id => by simp [Controller.new]⟩
  have ho₁ := addDiscovered_enumerates h₀ [⟨"vm", 1⟩, ⟨"vm", 2⟩]
  have ho₂ := addDiscovered_enumerates (sync_enumerates ho₁) []
  have ho₃ := addDiscovered_enumerates (sync_enumerates ho₂) [⟨"vm", 3⟩]
  have ho₄ := sync_enumerates ho₃
  refine ⟨?_, ?_, ?_, ?_, trivial⟩
  · intro c hc
    obtain rfl := Option.some.inj hc
    exact ho₁
  · intro c hc
    obtain rfl := Option.some.inj hc
    exact ho₂
  · intro c hc
    obtain rfl := Option.some.inj hc
    exact ho₃
  · intro c hc
    obtain rfl := Option.some.inj hc
    exact ho₄

/-- the first two clients are closed in the first two syncs, and the third when its refresh fails -/
theorem moves_in_lockstep_comesAndGoes :
    Core.Along (Core.withHistory procStep noteClients) MovesTogether
      (some (Controller.new {} (fun _ => none) {} : Controller (thresholdEngine .standard)), {}) comesAndGoes :=
  moves_in_lockstep {} {}
    ((Core.along_withHistory noteClients (comesAndGoes_ordered (thresholdEngine .standard) {} _ {})).and
      (by decide +kernel))

end IoThreadController
