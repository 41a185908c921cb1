/-
The daemon (`daemon.rs`): its events, one process as a state machine, and a host on which processes start and crash.

- `Controller.step`: one event of the main loop. A tick that returns an error ends the process.
- `procStep`: one process; `none` is a process that has ended.
- `hostStep`: the registry file, its temporary sibling and a process. A crash stops an event after any number of its
  external effects, and may tear the write in progress. The host also remembers every automatic resize.
-/
import IoThreadController.Core.Run
import IoThreadController.Model.Controller

namespace IoThreadController

variable {E : ScalingEngine}

/-! ## One process -/

inductive Event where
  | tick (env : TickEnv)
  | sync (discovered : List Discovered) (order : List VmId)
  | setThreadCount (vm : VmId) (threads : ℕ) (sticky : Bool) (backend : Except BackendClientError Unit)
  | setAllThreadCounts (threads : ℕ) (sticky : Bool) (backend : VmId → Except BackendClientError Unit)
      (order : List VmId)
  /-- a request that reads the inventory or talks to a client without resizing a pool -/
  | query

def Controller.step (c : Controller E) : Event → Controller E × List Effect × Except ControllerError Unit
  | .tick env => c.tick env
  | .sync discovered order =>
    let (c', effects, _) := c.syncInstances discovered order
    (c', effects, .ok ())
  | .setThreadCount vm threads sticky backend =>
    let (c', effects, _) := c.handleSetThreadCount vm threads sticky backend
    (c', effects, .ok ())
  | .setAllThreadCounts threads sticky backend order =>
    let (c', effects, _) := c.handleSetAllThreadCounts threads sticky backend order
    (c', effects, .ok ())
  | .query => (c, [], .ok ())

/-- the state after an event; an error ends the process -/
def procStep : Option (Controller E) → Event → Option (Controller E)
  | none, _ => none
  | some c, e =>
    match c.step e with
    | (c', _, .ok ()) => some c'
    | (_, _, .error _) => none

theorem procStep_eq_some {c c' : Controller E} {e : Event} :
    procStep (some c) e = some c' ↔ (c.step e).2.2 = .ok () ∧ (c.step e).1 = c' := by
  rcases h : c.step e with ⟨c1, effects, result⟩
  cases result with
  | ok u => simp [procStep, h]
  | error err => simp [procStep, h]

/-- the external effects of an event -/
def procEffects : Option (Controller E) → Event → List Effect
  | none, _ => []
  | some c, e => (c.step e).2.1

/-- the resizes that nobody asked for by hand -/
def automaticResize : Effect → Option (VmId × ℕ)
  | .setThreadCount _ vm count .automatic => some (vm, count)
  | _ => none

/-! ## A host with crashes -/

/-- what survives a process: the registry file, the temporary file, and the record of automatic resizes -/
structure World (β : Type) where
  main : Option β
  tmp : Option β := none
  resized : List (VmId × ℕ) := []

section Host

variable {β : Type} (J : Serde β)

/-- perform one effect; `torn` is what a failed write leaves in the temporary file -/
def World.perform (torn : Option β) (w : World β) : Effect → World β
  | .fs .createDirAll => w
  | .fs (.writeTmp o) => { w with tmp := some (J.toVecPretty o) }
  | .fs .tornTmp => { w with tmp := torn }
  | .fs .renameTmp =>
    match w.tmp with
    | some data => { w with main := some data, tmp := none }
    | none => w
  | e =>
    match automaticResize e with
    | some call => { w with resized := w.resized ++ [call] }
    | none => w

def World.performAll (torn : Option β) (w : World β) (effects : List Effect) : World β :=
  effects.foldl (World.perform J torn) w

structure Host (E : ScalingEngine) (β : Type) where
  world : World β
  process : Option (Controller E) := none

inductive HostEvent (E : ScalingEngine) (β : Type) where
  /-- start a daemon; an unreadable registry (`readFault`) keeps it down -/
  | start (cfg : Config) (engine : E.State) (readFault : Bool)
  | event (e : Event) (torn : Option β)
  /-- the process dies after `performed` effects of `e`; a write in progress leaves `torn` -/
  | crash (e : Event) (performed : ℕ) (torn : Option β)

/-- a crash in the middle of writing the temporary file leaves part of the data -/
def World.tear (torn : Option β) (w : World β) : Option Effect → World β
  | some (.fs (.writeTmp _)) => { w with tmp := torn }
  | _ => w

def hostStep (h : Host E β) : HostEvent E β → Host E β
  | .start cfg engine readFault =>
    match h.process, readFault, VmStateStore.load J h.world.main with
    | none, false, .ok o => { h with process := some (Controller.new cfg engine o) }
    | _, _, _ => h
  | .event e torn =>
    { world := h.world.performAll J torn (procEffects h.process e), process := procStep h.process e }
  | .crash e performed torn =>
    let effects := procEffects h.process e
    { world := (h.world.performAll J torn (effects.take performed)).tear torn effects[performed]?, process := none }

end Host

end IoThreadController
