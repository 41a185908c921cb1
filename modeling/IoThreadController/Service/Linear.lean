/-
Callers that overlap see a daemon that serves one request at a time.

A request takes effect when the main loop takes it, which is between its call and its return; a call whose timeout has
fired counts as one that has not returned, and may be served or not.

- `served_event`: what the service of a request does with the controller is one event of the daemon.
- `MarkedService`: the invariant. The marks of a run are what callers, channel and controller have done.
- `service_linearizable`: every run of callers, timeouts, ticks and services is explained by the order in which the daemon
  has performed the requests, and the daemon is in a state that its events, one after the other, lead to.
-/
import IoThreadController.Model.Service
import IoThreadController.Service.Requests

namespace IoThreadController

open IoThreadController.Core

variable {E : ScalingEngine} {σ : Type} (J : MappingJson) (median : List ℚ → ℚ) (clients : ClientId → InstanceClient σ)

/-! ## The sequential daemon -/

/-- the daemon serves a request, with nobody else at work -/
def Serves (x : Option (Controller E) × σ) (request : DbusRequest) (reply : ServiceReply) (y : Option (Controller E) × σ) :
    Prop :=
  ∃ c order, x.1 = some c ∧
    (y.1, y.2, reply) = ((c.handleDbusRequest J median clients order x.2 request).map some id)

/-- a tick or a discovery, or a change of the VMs -/
def OwnStep (x y : Option (Controller E) × σ) : Prop :=
  (∃ event : Event, event.isOwn = true ∧ y = (procStep x.1 event, x.2)) ∨ ∃ world, y = (x.1, world)

/-- the service of a request is one event of the daemon -/
theorem served_event (c : Controller E) (order : List VmId) (world : σ) (request : DbusRequest) :
    ∃ event : Event, procStep (some c) event = some (c.handleDbusRequest J median clients order world request).1 := by
  have hsame : procStep (some c) .query = some c := rfl
  cases request with
  | setThreadCount vm threads sticky =>
    exact ⟨.setThreadCount vm threads sticky (c.ask clients threads vm world).2, rfl⟩
  | setAllThreadCounts threads sticky =>
    exact ⟨.setAllThreadCounts threads sticky (c.askEach clients threads (order.insertionSort (· ≤ ·)) world).2 order, rfl⟩
  | getStats | getSnapshot | getVersion => exact ⟨.query, hsame⟩
  | getIoThreadVqMapping | addIoThread | delIoThread | setIoThreadVqMapping =>
    refine ⟨.query, ?_⟩
    simp only [Controller.handleDbusRequest]
    split <;> exact hsame

/-! ## One step -/

theorem next_eq_some {s : Service E σ} {id : CallId} {request : DbusRequest} {c : Controller E} :
    s.next = some (id, request, c) ↔
      s.daemon = some c ∧ s.bus.loop = .idle ∧ ∃ channel, s.bus.channel = (id, request) :: channel := by
  unfold Service.next
  split
  · rename_i c' id' request' channel hdaemon hloop hchannel
    simp only [hdaemon, hloop, hchannel, Option.some.injEq, Prod.mk.injEq, List.cons.injEq, true_and]
    constructor
    · rintro ⟨rfl, rfl, rfl⟩
      exact ⟨rfl, channel, ⟨rfl, rfl⟩, rfl⟩
    · rintro ⟨rfl, _, ⟨rfl, rfl⟩, -⟩
      exact ⟨rfl, rfl, rfl⟩
  · rename_i hnone
    simp only [reduceCtorEq, false_iff]
    rintro ⟨hdaemon, hloop, channel, hchannel⟩
    exact hnone c id request channel hdaemon hloop hchannel

/-- the marks of a run agree with the bus and with the daemon -/
structure MarkedService (start : Option (Controller E) × σ)
    (x : Service E σ × List (Mark CallId DbusRequest ServiceReply)) : Prop where
  bus : BusInv x.1.bus
  placed : Placed x.2
  called : ∀ id request, .called id request ∈ historyOf x.2 → x.1.bus.calls id ≠ none
  sending : ∀ id request, x.1.bus.calls id = some (.sending request) → .called id request ∈ historyOf x.2
  channel : ∀ p ∈ x.1.bus.channel, .called p.1 p.2 ∈ historyOf x.2
  performed : (orderOf x.2).map (fun call => (call.id, call.request)) = x.1.bus.performed
  serving : ∀ id request, x.1.bus.loop = .serving id request →
    ∃ reply, x.1.reply = some reply ∧ ⟨id, request, reply⟩ ∈ orderOf x.2
  sequential : Sequential OwnStep (Serves J median clients) start (turnsOf x.2) (x.1.daemon, x.1.world)
  daemon : ∃ events : List Event, x.1.daemon = Core.run procStep start.1 events

section
variable {J median clients} {start : Option (Controller E) × σ}
  {x : Service E σ × List (Mark CallId DbusRequest ServiceReply)}

theorem MarkedService.ids (h : MarkedService J median clients start x) :
    (orderOf x.2).map Served.id = x.1.bus.performed.map Prod.fst := by
  rw [← h.performed, List.map_map]
  rfl

/-- a step of the bus alone, with the marks as they are: no call is made, taken or answered -/
theorem MarkedService.quiet (h : MarkedService J median clients start x) {b : Bus} (hmoves : x.1.bus.Moves b)
    (hcalls : ∀ id, x.1.bus.calls id ≠ none → b.calls id ≠ none)
    (hsending : ∀ id request, b.calls id = some (.sending request) → x.1.bus.calls id = some (.sending request))
    (hchannel : ∀ p ∈ b.channel, p ∈ x.1.bus.channel ∨ x.1.bus.calls p.1 = some (.sending p.2))
    (hperformed : b.performed = x.1.bus.performed)
    (hserving : ∀ id request, b.loop = .serving id request → x.1.bus.loop = .serving id request) :
    MarkedService J median clients start ({ x.1 with bus := b }, x.2) where
  bus := h.bus.moves hmoves
  placed := h.placed
  called := fun id request hcalled => hcalls id (h.called id request hcalled)
  sending := fun id request hnow => h.sending id request (hsending id request hnow)
  channel := fun p hp => (hchannel p hp).elim (h.channel p) (h.sending p.1 p.2)
  performed := h.performed.trans hperformed.symm
  serving := fun id request hloop => h.serving id request (hserving id request hloop)
  sequential := h.sequential
  daemon := h.daemon

/-- the state of a call changes, from one that is there -/
theorem update_calls (calls : CallId → Option CallState) (id : CallId) {state : CallState} (hsent : state.isSent = true) :
    (∀ x, calls x ≠ none → Function.update calls id (some state) x ≠ none) ∧
      ∀ x request, Function.update calls id (some state) x = some (.sending request) → calls x = some (.sending request) := by
  refine ⟨fun x hx => ?_, fun x request hx => ?_⟩
  · by_cases hid : x = id
    · simp [hid]
    · rwa [Function.update_of_ne hid]
  · by_cases hid : x = id
    · rw [hid, Function.update_self, Option.some.injEq] at hx
      rw [hx] at hsent
      cases hsent
    · rwa [Function.update_of_ne hid] at hx

/-- a turn of the object that is not a service -/
theorem MarkedService.own (h : MarkedService J median clients start x) {daemon : Option (Controller E)} {world : σ}
    (hstep : OwnStep (x.1.daemon, x.1.world) (daemon, world))
    (hdaemon : ∃ events : List Event, daemon = Core.run procStep start.1 events) :
    MarkedService J median clients start ({ x.1 with daemon, world }, .turn .own :: x.2) where
  bus := h.bus
  placed := .own h.placed
  called := by simpa using h.called
  sending := by simpa using h.sending
  channel := by simpa using h.channel
  performed := by simpa using h.performed
  serving := by simpa using h.serving
  sequential := by simpa using Sequential.turn h.sequential .own hstep
  daemon := hdaemon

theorem MarkedService.call (h : MarkedService J median clients start x) (id : CallId) (request : DbusRequest) :
    MarkedService J median clients start (serviceHistory J median clients x (.call id request)) := by
  cases hc : x.1.bus.calls id with
  | some state =>
    have hsame : serviceHistory J median clients x (.call id request) = x := by
      simp [serviceHistory, Core.withHistory, Service.step, noteMark, busStep, hc]
    rwa [hsame]
  | none =>
    have hnow : serviceHistory J median clients x (.call id request) =
        ({ x.1 with bus := { x.1.bus with calls := Function.update x.1.bus.calls id (some (.sending request)) } },
          .visible (.called id request) :: x.2) := by
      simp [serviceHistory, Core.withHistory, Service.step, noteMark, busStep, hc]
    rw [hnow]
    refine ⟨h.bus.called hc, .called h.placed id request fun request' hold => h.called id request' hold hc, ?_, ?_, ?_, ?_,
      ?_, by simpa using h.sequential, h.daemon⟩
    · intro id' request' hcalled
      by_cases hid : id' = id
      · simp [hid]
      · have hold : .called id' request' ∈ historyOf x.2 := by simpa [hid] using hcalled
        simpa only [Function.update_of_ne hid] using h.called id' request' hold
    · intro id' request' hsending
      dsimp only at hsending
      rw [historyOf_visible, List.mem_append]
      by_cases hid : id' = id
      · rw [hid, Function.update_self, Option.some.injEq, CallState.sending.injEq] at hsending
        exact Or.inr (by simp [hid, hsending])
      · rw [Function.update_of_ne hid] at hsending
        exact Or.inl (h.sending id' request' hsending)
    · intro p hp
      rw [historyOf_visible]
      exact List.mem_append_left _ (h.channel p hp)
    · simpa using h.performed
    · simpa using h.serving

theorem MarkedService.take (h : MarkedService J median clients start x) (order : List VmId) :
    MarkedService J median clients start (serviceHistory J median clients x (.take order)) := by
  cases hnext : x.1.next with
  | none =>
    have hsame : serviceHistory J median clients x (.take order) = x := by
      simp [serviceHistory, Core.withHistory, Service.step, noteMark, hnext]
    rwa [hsame]
  | some next =>
    obtain ⟨id, request, c⟩ := next
    obtain ⟨hdaemon, hloop, channel, hchannel⟩ := next_eq_some.1 hnext
    rcases hserved : c.handleDbusRequest J median clients order x.1.world request with ⟨c', world, reply⟩
    have hnow : serviceHistory J median clients x (.take order) =
        ({ bus := { x.1.bus with
              channel, loop := .serving id request, performed := x.1.bus.performed ++ [(id, request)] },
           daemon := some c', world, reply := some reply }, .turn (.served ⟨id, request, reply⟩) :: x.2) := by
      simp [serviceHistory, Core.withHistory, Service.step, noteMark, hnext, busStep, hloop, hchannel, hserved]
    rw [hnow]
    have hcalled := h.channel (id, request) (by simp [hchannel])
    have hnew : id ∉ (orderOf x.2).map Served.id := by
      rw [h.ids]
      exact h.bus.pending id (by simp [hchannel])
    refine ⟨h.bus.takes hchannel, .served h.placed ⟨id, request, reply⟩ hcalled hnew, ?_, ?_, ?_, ?_, ?_, ?_, ?_⟩
    · simpa using h.called
    · simpa using h.sending
    · intro p hp
      rw [historyOf_turn]
      exact h.channel p (by rw [hchannel]; exact List.mem_cons_of_mem _ hp)
    · simp [h.performed]
    · intro id' request' hserving
      rw [LoopState.serving.injEq] at hserving
      exact ⟨reply, rfl, by simp [hserving.1, hserving.2]⟩
    · rw [turnsOf_turn]
      refine .turn h.sequential _ ⟨c, order, hdaemon, ?_⟩
      dsimp only
      rw [hserved]
      rfl
    · obtain ⟨events, hevents⟩ := h.daemon
      obtain ⟨event, hevent⟩ := served_event J median clients c order x.1.world request
      refine ⟨events ++ [event], ?_⟩
      rw [Core.run_append, ← hevents, hdaemon, Core.run_cons, Core.run_nil, hevent, hserved]

theorem MarkedService.replied (h : MarkedService J median clients start x) :
    MarkedService J median clients start (serviceHistory J median clients x .reply) := by
  cases hloop : x.1.bus.loop with
  | idle | ticking =>
    have hnow : serviceHistory J median clients x .reply = ({ x.1 with reply := none }, x.2) := by
      simp [serviceHistory, Core.withHistory, Service.step, noteMark, busStep, hloop]
    rw [hnow]
    exact { h with serving := fun id request hserving => by simp [hloop] at hserving }
  | serving id request =>
    obtain ⟨reply, hreply, hserved⟩ := h.serving id request hloop
    have hthere : x.1.bus.calls id ≠ none := h.called id request (h.placed.linearizes.called _ hserved)
    have hbus : (serviceHistory J median clients x .reply).1 = { x.1 with bus := busStep x.1.bus .reply, reply := none } := rfl
    have hmoves := busStep_moves x.1.bus .reply
    have hplaced : Placed (serviceHistory J median clients x .reply).2 ∧
        orderOf (serviceHistory J median clients x .reply).2 = orderOf x.2 ∧
        turnsOf (serviceHistory J median clients x .reply).2 = turnsOf x.2 ∧
        ∀ id' request', .called id' request' ∈ historyOf (serviceHistory J median clients x .reply).2 ↔
          .called id' request' ∈ historyOf x.2 := by
      simp only [serviceHistory, Core.withHistory, noteMark, hloop, hreply]
      split
      · exact ⟨.returned h.placed ⟨id, request, reply⟩ hserved, by simp, by simp, by simp⟩
      · exact ⟨h.placed, rfl, rfl, fun _ _ => Iff.rfl⟩
    obtain ⟨hplaced, horder, hturns, hcalled⟩ := hplaced
    have hcalls : (busStep x.1.bus .reply).calls = x.1.bus.calls ∨
        (busStep x.1.bus .reply).calls = Function.update x.1.bus.calls id (some .answered) := by
      simp only [busStep, hloop]
      split
      · exact Or.inr rfl
      · exact Or.inl rfl
    have hrest : (busStep x.1.bus .reply).channel = x.1.bus.channel ∧
        (busStep x.1.bus .reply).performed = x.1.bus.performed ∧ (busStep x.1.bus .reply).loop = .idle := by
      simp [busStep, hloop]
    obtain ⟨hstill, hsending⟩ := update_calls x.1.bus.calls id (show CallState.answered.isSent = true from rfl)
    refine ⟨h.bus.moves hmoves, hplaced, fun id' request' hnow => ?_, fun id' request' hnow => ?_, fun p hp => ?_, ?_, ?_, ?_,
      h.daemon⟩
    · have hold := h.called id' request' ((hcalled id' request').1 hnow)
      rw [hbus]
      rcases hcalls with heq | heq
      · rwa [heq]
      · rw [heq]
        exact hstill id' hold
    · rw [hbus] at hnow
      rw [hcalled]
      rcases hcalls with heq | heq
      · exact h.sending id' request' (by rwa [heq] at hnow)
      · exact h.sending id' request' (hsending id' request' (by rwa [heq] at hnow))
    · rw [hcalled]
      rw [hbus, hrest.1] at hp
      exact h.channel p hp
    · rw [horder, h.performed, hbus, hrest.2.1]
    · intro id' request' hserving
      rw [hbus, hrest.2.2] at hserving
      cases hserving
    · rw [hturns]
      exact h.sequential

/-- a step of a caller that is not the call -/
theorem MarkedService.send (h : MarkedService J median clients start x) (id : CallId) :
    MarkedService J median clients start ({ x.1 with bus := busStep x.1.bus (.send id) }, x.2) := by
  have hmoves := busStep_moves x.1.bus (.send id)
  simp only [busStep] at hmoves ⊢
  split at hmoves
  · rename_i request hc
    split_ifs at hmoves ⊢
    · obtain ⟨hstill, hsending⟩ := update_calls x.1.bus.calls id (show (CallState.waiting request).isSent = true from rfl)
      refine h.quiet hmoves hstill hsending (fun p hp => ?_) rfl fun _ _ hloop => hloop
      rcases List.mem_append.1 hp with hold | hnew
      · exact Or.inl hold
      · rw [List.mem_singleton.1 hnew]
        exact Or.inr hc
    · exact h
  · exact h

theorem MarkedService.timeout (h : MarkedService J median clients start x) (id : CallId) :
    MarkedService J median clients start ({ x.1 with bus := busStep x.1.bus (.timeout id) }, x.2) := by
  have hmoves := busStep_moves x.1.bus (.timeout id)
  simp only [busStep] at hmoves ⊢
  split at hmoves
  · obtain ⟨hstill, hsending⟩ := update_calls x.1.bus.calls id (show CallState.failed.isSent = true from rfl)
    exact h.quiet hmoves hstill hsending (fun p hp => Or.inl hp) rfl fun _ _ hloop => hloop
  · exact h

/-- the loop begins or ends a tick -/
theorem MarkedService.ticks (h : MarkedService J median clients start x) {loop : LoopState}
    (hloop : ∀ id request, loop ≠ .serving id request) :
    MarkedService J median clients start ({ x.1 with bus := { x.1.bus with loop } }, x.2) :=
  h.quiet (.ticks loop hloop) (fun _ hcalls => hcalls) (fun _ _ hsending => hsending) (fun _ hp => Or.inl hp) rfl
    fun id request hserving => absurd hserving (hloop id request)

theorem markedService_step (h : MarkedService J median clients start x) (e : ServiceEvent σ) :
    MarkedService J median clients start (serviceHistory J median clients x e) := by
  cases e with
  | call id request => exact h.call id request
  | send id => exact h.send id
  | timeout id => exact h.timeout id
  | take order => exact h.take order
  | reply => exact h.replied
  | outside world => exact h.own (Or.inr ⟨world, rfl⟩) h.daemon
  | tickStart =>
    simp only [serviceHistory, Core.withHistory, Service.step, noteMark, busStep]
    split_ifs
    · exact h.ticks (by simp)
    · exact h
  | tickEnd =>
    simp only [serviceHistory, Core.withHistory, Service.step, noteMark, busStep]
    split_ifs
    · exact h.ticks (by simp)
    · exact h
  | work event =>
    obtain ⟨events, hevents⟩ := h.daemon
    simp only [serviceHistory, Core.withHistory, Service.step, noteMark]
    split_ifs with hown
    · refine h.own (Or.inl ⟨event, hown.2, rfl⟩) ⟨events ++ [event], ?_⟩
      rw [Core.run_append, ← hevents, Core.run_cons, Core.run_nil]
    · exact h.own (Or.inr ⟨x.1.world, rfl⟩) ⟨events, hevents⟩

end

/-! ## Runs -/

/-- callers that overlap, in any order of their steps, of timeouts, ticks, discoveries and services, and whatever becomes of
the VMs: the requests that the daemon has performed, in that order, explain all that the callers have seen, serving them one
after the other leads to the state that there is, and the daemon has come there by its events -/
theorem service_linearizable (c : Controller E) (world : σ) (events : List (ServiceEvent σ)) :
    let x := Core.run (serviceHistory J median clients) ({ daemon := some c, world }, []) events
    Linearizes (orderOf x.2) (historyOf x.2) ∧
      (orderOf x.2).map (fun call => (call.id, call.request)) = x.1.bus.performed ∧
      Sequential OwnStep (Serves J median clients) (some c, world) (turnsOf x.2) (x.1.daemon, x.1.world) ∧
      ∃ es : List Event, x.1.daemon = Core.run procStep (some c) es := by
  intro x
  have hstart : MarkedService J median clients (some c, world) ({ daemon := some c, world }, []) := by
    refine ⟨empty_busInv, .nil, ?_, ?_, ?_, rfl, ?_, .start, [], rfl⟩
    all_goals simp [historyOf]
  have h : MarkedService J median clients (some c, world) x :=
    Core.run_inv (MarkedService J median clients (some c, world)) (fun _ e h _ => markedService_step h e) hstart
      (Core.along_true _ _ events)
  exact ⟨h.placed.linearizes, h.performed, h.sequential, h.daemon⟩

end IoThreadController
