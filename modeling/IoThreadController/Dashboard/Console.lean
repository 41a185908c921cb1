/-
A dashboard's calls at the daemon.

Every call of the screen is a task of its own, so calls may reach the daemon in any order, or never.

- `AskedAt`: the `i`-th call of the screen is one that a key has asked for.
- `held_step`: callers, channel and daemon hold no request but those that were called.
- `performed_as_asked`: what the daemon performs for the dashboard is what keys have asked for, and no key's call is
  performed twice.
-/
import IoThreadController.Dashboard.Keys
import IoThreadController.Fleet.Tick
import IoThreadController.Model.Service
import IoThreadController.Service.Requests

namespace IoThreadController

/-! ## What the bus holds -/

/-- a call's request that is not performed yet, or is -/
def Bus.Held (b : Bus) (id : CallId) (request : DbusRequest) : Prop :=
  b.calls id = some (.sending request) ∨ (id, request) ∈ b.channel ∨ (id, request) ∈ b.performed

theorem held_update {calls : CallId → Option CallState} {id x : CallId} {state : CallState} {request : DbusRequest}
    (h : Function.update calls x (some state) id = some (.sending request)) :
    calls id = some (.sending request) ∨ (id = x ∧ state = .sending request) := by
  by_cases hid : id = x
  · rw [hid, Function.update_self, Option.some.injEq] at h
    exact Or.inr ⟨hid, h⟩
  · rw [Function.update_of_ne hid] at h
    exact Or.inl h

theorem held_busStep {b : Bus} {ev : BusEvent} {id : CallId} {request : DbusRequest} (h : (busStep b ev).Held id request) :
    b.Held id request ∨ ev = .call id request := by
  cases ev with
  | call x request' =>
    simp only [busStep] at h
    split at h
    · rcases h with hcalls | hrest
      · rcases held_update hcalls with hold | ⟨rfl, heq⟩
        · exact Or.inl (Or.inl hold)
        · rw [CallState.sending.injEq] at heq
          exact Or.inr (by rw [heq])
      · exact Or.inl (Or.inr hrest)
    · exact Or.inl h
  | send x =>
    refine Or.inl ?_
    simp only [busStep] at h
    split at h
    · rename_i request' hsending
      split_ifs at h
      · rcases h with hcalls | hchannel | hperformed
        · rcases held_update hcalls with hold | ⟨-, heq⟩
          · exact Or.inl hold
          · cases heq
        · rcases List.mem_append.1 hchannel with hold | hnew
          · exact Or.inr (Or.inl hold)
          · rw [List.mem_singleton, Prod.mk.injEq] at hnew
            exact Or.inl (by rw [hnew.1, hnew.2]; exact hsending)
        · exact Or.inr (Or.inr hperformed)
      · exact h
    · exact h
  | timeout x =>
    refine Or.inl ?_
    simp only [busStep] at h
    split at h
    · rcases h with hcalls | hrest
      · rcases held_update hcalls with hold | ⟨-, heq⟩
        · exact Or.inl hold
        · cases heq
      · exact Or.inr hrest
    · exact h
  | tickStart | tickEnd =>
    refine Or.inl ?_
    simp only [busStep] at h
    split_ifs at h <;> exact h
  | take =>
    refine Or.inl ?_
    simp only [busStep] at h
    split at h
    · rename_i hchannel
      rcases h with hcalls | hrest | hperformed
      · exact Or.inl hcalls
      · exact Or.inr (Or.inl (by rw [hchannel]; exact List.mem_cons_of_mem _ hrest))
      · rcases List.mem_append.1 hperformed with hold | hnew
        · exact Or.inr (Or.inr hold)
        · exact Or.inr (Or.inl (by rw [hchannel, List.mem_singleton.1 hnew]; exact List.mem_cons_self))
    · exact h
  | reply =>
    refine Or.inl ?_
    simp only [busStep] at h
    split at h
    · rcases h with hcalls | hrest
      · split at hcalls
        · rcases held_update hcalls with hold | ⟨-, heq⟩
          · exact Or.inl hold
          · cases heq
        · exact Or.inl hcalls
      · exact Or.inr hrest
    · exact h

variable {E : ScalingEngine} {σ : Type} (J : MappingJson) (median : List ℚ → ℚ) (clients : ClientId → InstanceClient σ)

/-- a step of the service steps its bus, or leaves it -/
theorem service_bus (s : Service E σ) (e : ServiceEvent σ) : (s.step J median clients e).bus = s.bus ∨
    ∃ ev, (s.step J median clients e).bus = busStep s.bus ev ∧ ∀ id request, ev = .call id request → e = .call id request := by
  cases e with
  | call id request =>
    refine Or.inr ⟨.call id request, rfl, fun id' request' heq => ?_⟩
    rw [BusEvent.call.injEq] at heq
    rw [heq.1, heq.2]
  | send id => exact Or.inr ⟨.send id, rfl, by simp⟩
  | timeout id => exact Or.inr ⟨.timeout id, rfl, by simp⟩
  | tickStart => exact Or.inr ⟨.tickStart, rfl, by simp⟩
  | tickEnd => exact Or.inr ⟨.tickEnd, rfl, by simp⟩
  | reply => exact Or.inr ⟨.reply, rfl, by simp⟩
  | outside world => exact Or.inl rfl
  | work event =>
    simp only [Service.step]
    split_ifs <;> exact Or.inl rfl
  | take order =>
    simp only [Service.step]
    split
    · exact Or.inl rfl
    · exact Or.inr ⟨.take, rfl, by simp⟩

theorem service_busInv {s : Service E σ} (h : BusInv s.bus) (e : ServiceEvent σ) :
    BusInv (s.step J median clients e).bus := by
  rcases service_bus J median clients s e with hbus | ⟨ev, hbus, -⟩
  · rwa [hbus]
  · rw [hbus]
    exact h.moves (busStep_moves s.bus ev)

theorem held_step {s : Service E σ} {e : ServiceEvent σ} {id : CallId} {request : DbusRequest}
    (h : (s.step J median clients e).bus.Held id request) : s.bus.Held id request ∨ e = .call id request := by
  rcases service_bus J median clients s e with hbus | ⟨ev, hbus, hev⟩
  · exact Or.inl (hbus ▸ h)
  · rw [hbus] at h
    exact (held_busStep h).imp_right (hev id request)

/-! ## Keys and calls -/

/-- the `i`-th call of the screen has been asked for by a key of the run -/
def AskedAt (select : List String) (trace : ScreenTrace) (i : ℕ) (call : ThreadCountCall) : Prop :=
  ∃ later s k now before, trace = later ++ (s, .key k now) :: before ∧ s.sent.length = i ∧ Asked select (s, before) k call

theorem AskedAt.later {select : List String} {trace : ScreenTrace} {i : ℕ} {call : ThreadCountCall}
    (h : AskedAt select trace i call) (y : Screen × ScreenEvent) : AskedAt select (y :: trace) i call := by
  obtain ⟨later, s, k, now, before, htrace, hlength, hasked⟩ := h
  exact ⟨y :: later, s, k, now, before, by rw [htrace]; rfl, hlength, hasked⟩

/-- the screens of a run, beside the machine -/
def noteScreen (s : Console E σ) (e : ConsoleEvent σ) (trace : ScreenTrace) : ScreenTrace :=
  match e with
  | .screen event => (s.screen, event) :: trace
  | _ => trace

def consoleHistory (select : List String) : Console E σ × ScreenTrace → ConsoleEvent σ → Console E σ × ScreenTrace :=
  Core.withHistory (Console.step J median clients select) noteScreen

def ConsoleEvent.WellFormed : ConsoleEvent σ → Prop
  | .screen event => event.WellFormed
  | _ => True

/-- what the bus holds for the screen are calls of the screen, and what these are -/
structure ConsoleSound (select : List String) (x : Console E σ × ScreenTrace) : Prop where
  shown : ShownBy select (x.1.screen, x.2)
  asked : ∀ i call, x.1.screen.sent[i]? = some call → AskedAt select x.2 i call
  bus : BusInv x.1.service.bus
  held : ∀ i request, x.1.service.bus.Held (2 * i) request → ∃ call, x.1.screen.sent[i]? = some call ∧ request = call.request

section
variable {J median clients} {select : List String} {x : Console E σ × ScreenTrace}

/-- the screen's calls after a step of it -/
theorem ShownBy.sent {y : Screen × ScreenTrace} (h : ShownBy select y) (e : ScreenEvent) :
    (y.1.step select e).sent = y.1.sent ∨
      ∃ k now call, e = .key k now ∧ (y.1.step select e).sent = y.1.sent ++ [call] ∧ Asked select y k call := by
  cases hquit : y.1.quit with
  | true => exact Or.inl (by rw [Screen.step_of_quit select hquit])
  | false =>
    have hstep := Screen.steps select hquit e
    generalize y.1.step select e = s at hstep
    cases hstep with
    | key k now =>
      rcases asked_of_sent h k now with hsent | ⟨call, hsent, -, -, hasked⟩
      · exact Or.inl hsent
      · exact Or.inr ⟨k, now, call, rfl, hsent, hasked⟩
    | _ => exact Or.inl rfl

theorem ConsoleSound.screen (h : ConsoleSound select x) {e : ScreenEvent} (hw : e.WellFormed) :
    ConsoleSound select ({ x.1 with screen := x.1.screen.step select e }, (x.1.screen, e) :: x.2) := by
  have hshown : ShownBy select (x.1.screen.step select e, (x.1.screen, e) :: x.2) := shownBy_step h.shown hw
  rcases h.shown.sent e with hsent | ⟨k, now, call, rfl, hsent, hasked⟩
  · refine ⟨hshown, fun i call hi => ?_, h.bus, fun i request hheld => ?_⟩
    · dsimp only at hi
      rw [hsent] at hi
      exact (h.asked i call hi).later _
    · dsimp only
      rw [hsent]
      exact h.held i request hheld
  · refine ⟨hshown, fun i call' hi => ?_, h.bus, fun i request hheld => ?_⟩
    · dsimp only at hi
      rw [hsent, List.getElem?_append] at hi
      split_ifs at hi with hlt
      · exact (h.asked i call' hi).later _
      · -- the call of this key
        rw [List.getElem?_singleton] at hi
        split_ifs at hi with hlast
        refine ⟨[], x.1.screen, k, now, x.2, rfl, ?_, Option.some.inj hi ▸ hasked⟩
        dsimp only at hlt hlast
        omega
    · obtain ⟨call', hcall', heq⟩ := h.held i request hheld
      refine ⟨call', ?_, heq⟩
      dsimp only
      rw [hsent]
      exact List.getElem?_append_left (List.getElem?_eq_some_iff.1 hcall').1 ▸ hcall'

theorem ConsoleSound.service (h : ConsoleSound select x) {e : ServiceEvent σ}
    (hcall : ∀ i request, e = .call (2 * i) request → ∃ call, x.1.screen.sent[i]? = some call ∧ request = call.request) :
    ConsoleSound select ({ x.1 with service := x.1.service.step J median clients e }, x.2) where
  shown := h.shown
  asked := h.asked
  bus := service_busInv J median clients h.bus e
  held := fun i request hheld => (held_step J median clients hheld).elim (h.held i request) (hcall i request)

theorem consoleSound_step (h : ConsoleSound select x) {e : ConsoleEvent σ} (hw : e.WellFormed) :
    ConsoleSound select (consoleHistory J median clients select x e) := by
  cases e with
  | screen event => exact h.screen hw
  | dispatch i =>
    simp only [consoleHistory, Core.withHistory, Console.step, noteScreen]
    split
    · exact h
    · rename_i call hsent
      refine h.service fun j request heq => ?_
      rw [ServiceEvent.call.injEq] at heq
      have hid : (2 * i : ℕ) = 2 * j := heq.1
      obtain rfl : i = j := by omega
      exact ⟨call, hsent, heq.2.symm⟩
  | call i request =>
    refine h.service fun j request' heq => ?_
    rw [ServiceEvent.call.injEq] at heq
    have hid : (2 * i + 1 : ℕ) = 2 * j := heq.1
    omega
  | service event =>
    cases event with
    | call id request => exact h
    | _ => exact h.service (by simp)

end

/-! ## Runs -/

/-- what the daemon has performed of the dashboard's calls, in whatever order they came, are requests that keys have asked
for, and each key's once at most -/
theorem performed_as_asked (select : List String) (perfMetric : PerfMetric) (refreshSecs : ℚ) (c : Controller E) (world : σ)
    (events : List (ConsoleEvent σ)) (hw : ∀ e ∈ events, e.WellFormed) :
    let x := Core.run (consoleHistory J median clients select)
      (⟨Screen.start perfMetric refreshSecs, { daemon := some c, world }⟩, []) events
    (x.1.service.bus.performed.map Prod.fst).Nodup ∧
      ∀ i request, (2 * i, request) ∈ x.1.service.bus.performed →
        ∃ call, request = call.request ∧ x.1.screen.sent[i]? = some call ∧ AskedAt select x.2 i call := by
  intro x
  have hstart : ConsoleSound select
      (⟨Screen.start perfMetric refreshSecs, { daemon := some c, world }⟩, ([] : ScreenTrace)) := by
    refine ⟨shownBy_start select perfMetric refreshSecs, nofun, empty_busInv, fun i request hheld => ?_⟩
    rcases hheld with hheld | hheld | hheld <;> cases hheld
  have h : ConsoleSound select x :=
    Core.run_inv (ConsoleSound select) (fun _ _ h hw => consoleSound_step h hw) hstart (Core.along_of_forall _ _ hw)
  refine ⟨h.bus.once, fun i request hperformed => ?_⟩
  obtain ⟨call, hsent, heq⟩ := h.held i request (Or.inr (Or.inr hperformed))
  exact ⟨call, heq, hsent, h.asked i call hsent⟩

/-- a nudge of a VM, and then a number typed for it: the task of the second call comes first, so the nudge has the last word -/
theorem performed_as_asked_reversed :
    let record : Instance := ⟨"b", 0, { vcpuCount := 16, threadCount := 4 }⟩
    let c : Controller (.stateless fun _ => .none) :=
      { cfg := {}, engine := (), instances := fun id => if id = "b" then some record else none }
    let client : InstanceClient Unit :=
      { setThreadCount := fun _ s => (s, .ok ()), getThreadPoolSnapshot := fun s => (s, .error ""), close := id }
    let served (i : ℕ) : List (ConsoleEvent Unit) :=
      [.dispatch i, .service (.send (2 * i)), .service (.take ["b"]), .service .reply]
    let events : List (ConsoleEvent Unit) :=
      [.wake 0, .reply ⟨[{ id := "a", threadCount := 2 }, { id := "b", threadCount := 4 }]⟩, .record, .key .down 1,
        .key (.char '+') 2, .key (.char 'n') 3, .key .tab 4, .key .backspace 5, .wake 6, .key (.char '7') 7,
        .key .enter 8].map .screen ++ served 1 ++ served 0
    let x := Core.run (consoleHistory ⟨fun _ => .ok "", fun _ => .ok []⟩ (fun _ => 0) (fun _ => client) [])
      (⟨Screen.start .iops 1, { daemon := some c, world := () }⟩, []) events
    x.1.service.bus.performed = [(2, .setThreadCount "b" 7 true), (0, .setThreadCount "b" 5 false)] ∧
      ∃ call, .setThreadCount "b" 5 false = call.request ∧ x.1.screen.sent[0]? = some call ∧ AskedAt [] x.2 0 call := by
  intro record c client served events x
  have hw : ∀ e ∈ events, e.WellFormed := by
    intro e he
    simp only [events, served, List.map_cons, List.map_nil, List.cons_append, List.nil_append, List.mem_cons,
      List.not_mem_nil, or_false] at he
    rcases he with rfl | rfl | rfl | rfl | rfl | rfl | rfl | rfl | rfl | rfl | rfl | rfl | rfl | rfl | rfl | rfl | rfl | rfl | rfl
    all_goals trivial
  have hperformed : x.1.service.bus.performed = [(2, .setThreadCount "b" 7 true), (0, .setThreadCount "b" 5 false)] := by
    decide +kernel
  refine ⟨hperformed, ?_⟩
  exact (performed_as_asked _ _ _ [] .iops 1 c () events hw).2 0 _ (by rw [hperformed]; simp)

end IoThreadController
