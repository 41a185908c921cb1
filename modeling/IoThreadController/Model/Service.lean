/-
The D-Bus service of a running daemon (`handle_dbus_request` of `controller.rs`, the main loop of `daemon.rs`): callers, the
channel, the main loop and the controller together; and a dashboard whose calls are among the others'.

`Bus` says who waits and what is in the channel. Here the loop also has its controller, and a request that it takes is
served: the clients of the VMs are asked, in their world `σ`, and the result goes to the reply channel. Replies are not
written as JSON texts. The calls that set thread counts exist in debug builds only.
-/
import IoThreadController.Core.Linear
import IoThreadController.Model.Dbus
import IoThreadController.Model.Screen
import IoThreadController.Model.Snapshot

namespace IoThreadController

open IoThreadController.Core (Mark)

/-- the result on a reply channel -/
inductive ServiceReply where
  | unit (result : Except String Unit)
  /-- failures and a summary -/
  | counts (failed : ℕ) (summary : String)
  | stats (tick : ℕ) (vms : List VmStats)
  | snapshot (vms : List SnapshotEntry)
  | version (text : String)
  | verb (reply : DbusReply)

/-- `env!("CARGO_PKG_VERSION")` -/
def crateVersion : String := "0.1.0"

section Requests
variable {E : ScalingEngine} {σ : Type} (J : MappingJson) (median : List ℚ → ℚ)
  -- the client that discovery has made, by its record
  (clients : ClientId → InstanceClient σ)

namespace Controller

/-- the client of a tracked VM, as its record holds it -/
def clientOf (c : Controller E) (vm : VmId) : Option (InstanceClient σ) :=
  (c.instances vm).map fun i => (clients i.client).stored

/-- a client's answer to `set_thread_count`, where `handle_set_thread_count` gets as far as asking it -/
def ask (c : Controller E) (threads : ℕ) (vm : VmId) (world : σ) : σ × Except BackendClientError Unit :=
  match c.instances vm with
  | none => (world, .ok ())
  | some i =>
    if threads = 0 ∨ i.status.vcpuCount < threads then (world, .ok ())
    else (clients i.client).stored.setThreadCount threads world

/-- the answers to one count for every VM, in that order -/
def askEach (c : Controller E) (threads : ℕ) : List VmId → σ → σ × (VmId → Except BackendClientError Unit)
  | [], world => (world, fun _ => .ok ())
  | vm :: vms, world =>
    let (world, answer) := c.ask clients threads vm world
    let (world, answers) := c.askEach threads vms world
    (world, Function.update answers vm answer)

/-- `handle_dbus_request`; `order` is the order in which the map of instances gives its keys -/
def handleDbusRequest (order : List VmId) (c : Controller E) (world : σ) : DbusRequest → Controller E × σ × ServiceReply
  | .setThreadCount vm threads sticky =>
    let (world, answer) := c.ask clients threads vm world
    let (c, _, result) := c.handleSetThreadCount vm threads sticky answer
    (c, world, .unit (result.mapError ControllerError.text))
  | .setAllThreadCounts threads sticky =>
    let (world, answers) := c.askEach clients threads (order.insertionSort (· ≤ ·)) world
    let (c, _, failed, summary) := c.handleSetAllThreadCounts threads sticky answers order
    (c, world, .counts failed summary)
  | .getSnapshot => (c, world, .snapshot (c.handleGetSnapshot median order))
  | .getVersion => (c, world, .version crateVersion)
  | .getStats => (c, world, .stats (c.getStats order).1 (c.getStats order).2)
  | request =>
    match handleIoThreadVerb J (c.clientOf clients) world request with
    | some (world, reply) => (c, world, .verb reply)
    -- not reached: the other requests are above
    | none => (c, world, .unit (.ok ()))

end Controller

end Requests

/-! ## A running service -/

/-- what the main loop does by itself -/
def Event.isOwn : Event → Bool
  | .tick _ | .sync .. => true
  | .setThreadCount .. | .setAllThreadCounts .. | .query => false

structure Service (E : ScalingEngine) (σ : Type) where
  bus : Bus := {}
  /-- none is a daemon that has ended -/
  daemon : Option (Controller E)
  world : σ
  /-- the result of the request in service -/
  reply : Option ServiceReply := none

inductive ServiceEvent (σ : Type) where
  | call (id : CallId) (request : DbusRequest)
  | send (id : CallId)
  | timeout (id : CallId)
  | tickStart
  /-- a tick or a discovery of the main loop -/
  | work (event : Event)
  | tickEnd
  | take (order : List VmId)
  | reply
  /-- the VMs change, with or without the daemon's doing -/
  | outside (world : σ)

section Service
variable {E : ScalingEngine} {σ : Type} (J : MappingJson) (median : List ℚ → ℚ) (clients : ClientId → InstanceClient σ)

/-- the request that the main loop takes next, if it is free to, with the controller that serves it -/
def Service.next (s : Service E σ) : Option (CallId × DbusRequest × Controller E) :=
  match s.daemon, s.bus.loop, s.bus.channel with
  | some c, .idle, (id, request) :: _ => some (id, request, c)
  | _, _, _ => none

def Service.step (s : Service E σ) : ServiceEvent σ → Service E σ
  | .call id request => { s with bus := busStep s.bus (.call id request) }
  | .send id => { s with bus := busStep s.bus (.send id) }
  | .timeout id => { s with bus := busStep s.bus (.timeout id) }
  | .tickStart => { s with bus := busStep s.bus .tickStart }
  | .work event =>
    if s.bus.loop = .ticking ∧ event.isOwn then { s with daemon := procStep s.daemon event } else s
  | .tickEnd => { s with bus := busStep s.bus .tickEnd }
  | .take order =>
    match s.next with
    | none => s
    | some (_, request, c) =>
      let (c, world, reply) := c.handleDbusRequest J median clients order s.world request
      { bus := busStep s.bus .take, daemon := some c, world, reply := some reply }
  | .reply => { s with bus := busStep s.bus .reply, reply := none }
  | .outside world => { s with world }

/-- the marks of a run: what callers see, and the turns of the controller -/
def noteMark (s : Service E σ) (e : ServiceEvent σ) (trace : List (Mark CallId DbusRequest ServiceReply)) :
    List (Mark CallId DbusRequest ServiceReply) :=
  match e with
  | .call id request => if s.bus.calls id = none then .visible (.called id request) :: trace else trace
  | .take order =>
    match s.next with
    | none => trace
    | some (id, request, c) =>
      .turn (.served ⟨id, request, (c.handleDbusRequest J median clients order s.world request).2.2⟩) :: trace
  | .reply =>
    match s.bus.loop, s.reply with
    | .serving id _, some reply =>
      -- a caller whose timeout has fired gets nothing
      match s.bus.calls id with
      | some (.waiting _) => .visible (.returned id reply) :: trace
      | _ => trace
    | _, _ => trace
  | .work _ | .outside _ => .turn .own :: trace
  | .send _ | .timeout _ | .tickStart | .tickEnd => trace

def serviceHistory : Service E σ × List (Mark CallId DbusRequest ServiceReply) → ServiceEvent σ →
    Service E σ × List (Mark CallId DbusRequest ServiceReply) :=
  Core.withHistory (Service.step J median clients) (noteMark J median clients)

end Service

/-! ## A dashboard beside it -/

/-- the task that `request_set_thread_count` spawns for a call makes it -/
def ThreadCountCall.request (call : ThreadCountCall) : DbusRequest := .setThreadCount call.id call.next call.sticky

/-- a dashboard and the daemon, with other callers -/
structure Console (E : ScalingEngine) (σ : Type) where
  screen : Screen
  service : Service E σ

inductive ConsoleEvent (σ : Type) where
  | screen (event : ScreenEvent)
  /-- the task of the `i`-th call of the screen gets to run -/
  | dispatch (i : ℕ)
  /-- another caller makes its `i`-th call -/
  | call (i : ℕ) (request : DbusRequest)
  /-- anything else that callers in the channel and the daemon do -/
  | service (event : ServiceEvent σ)

section Console
variable {E : ScalingEngine} {σ : Type} (J : MappingJson) (median : List ℚ → ℚ) (clients : ClientId → InstanceClient σ)
  (select : List String)

/-- the calls of the dashboard have the even ids -/
def Console.step (s : Console E σ) : ConsoleEvent σ → Console E σ
  | .screen event => { s with screen := s.screen.step select event }
  | .dispatch i =>
    match s.screen.sent[i]? with
    | none => s
    | some call => { s with service := s.service.step J median clients (.call (2 * i) call.request) }
  | .call i request => { s with service := s.service.step J median clients (.call (2 * i + 1) request) }
  | .service (.call ..) => s
  | .service event => { s with service := s.service.step J median clients event }

end Console

end IoThreadController
