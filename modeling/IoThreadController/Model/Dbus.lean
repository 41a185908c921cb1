/-
The D-Bus surface (`dbus.rs`): its requests, how the controller serves the IOThread verbs, and the channel between callers
and controller.

- `DbusRequest`, `handleIoThreadVerb`: the verbs that go to a backend client.
- `Bus`, `busStep`: callers, the channel of capacity one, and the main loop. A caller whose request has entered the
  channel waits for the reply until its timeout fires; the controller takes one request at a time, performs it, and
  sends the reply, which is dropped when nobody waits for it.
-/
import IoThreadController.Model.Client

namespace IoThreadController

inductive DbusRequest where
  | setThreadCount (vm : VmId) (threads : ℕ) (sticky : Bool)
  | setAllThreadCounts (threads : ℕ) (sticky : Bool)
  | getStats
  | getSnapshot
  | getVersion
  | getIoThreadVqMapping (vm : VmId) (device : String)
  | addIoThread (vm : VmId) (id : String) (pollMaxNs : ℤ)
  | delIoThread (vm : VmId) (id : String)
  | setIoThreadVqMapping (vm : VmId) (device mappingJson : String)
deriving DecidableEq, Repr

/-- the JSON library on mappings -/
structure MappingJson where
  toString : List VqMapping → Except String String
  fromStr : String → Except String (List VqMapping)

inductive DbusReply where
  | unit (result : Except String Unit)
  | text (result : Except String String)

section Verbs

variable {σ : Type} (J : MappingJson) (clients : VmId → Option (InstanceClient σ))

/-- the IOThread branches of `handle_dbus_request`; other requests are served elsewhere -/
def handleIoThreadVerb (s : σ) : DbusRequest → Option (σ × DbusReply)
  | .getIoThreadVqMapping vm device =>
    match clients vm with
    | none => some (s, .text (.error ("unknown VM " ++ vm)))
    | some client =>
      match client.getIoThreadVqMapping device s with
      | (s', .error error) => some (s', .text (.error error))
      | (s', .ok mapping) => some (s', .text ((J.toString mapping).mapError ("serialize mapping: " ++ ·)))
  | .addIoThread vm id pollMaxNs =>
    match clients vm with
    | none => some (s, .unit (.error ("unknown VM " ++ vm)))
    | some client =>
      let properties := if 0 ≤ pollMaxNs then some { pollMaxNs := some pollMaxNs } else none
      some ((client.addIoThread id properties s).1, .unit (client.addIoThread id properties s).2)
  | .delIoThread vm id =>
    match clients vm with
    | none => some (s, .unit (.error ("unknown VM " ++ vm)))
    | some client => some ((client.delIoThread id s).1, .unit (client.delIoThread id s).2)
  | .setIoThreadVqMapping vm device mappingJson =>
    match J.fromStr mappingJson with
    | .error error => some (s, .unit (.error ("parse mapping JSON: " ++ error)))
    | .ok mapping =>
      match clients vm with
      | none => some (s, .unit (.error ("unknown VM " ++ vm)))
      | some client =>
        some ((client.setIoThreadVqMapping device mapping s).1, .unit (client.setIoThreadVqMapping device mapping s).2)
  | .setThreadCount .. | .setAllThreadCounts .. | .getStats | .getSnapshot | .getVersion => none

end Verbs

/-! ## Callers, channel and main loop -/

/-- one D-Bus method call -/
abbrev CallId := ℕ

inductive CallState where
  /-- in `tx.send`, until the channel has room -/
  | sending (request : DbusRequest)
  /-- in `await_with_timeout` -/
  | waiting (request : DbusRequest)
  | answered
  /-- returned "request timed out" -/
  | failed
deriving DecidableEq, Repr

/-- what the main loop is doing -/
inductive LoopState where
  | idle
  | ticking
  | serving (id : CallId) (request : DbusRequest)
deriving DecidableEq, Repr

structure Bus where
  calls : CallId → Option CallState := fun _ => none
  channel : List (CallId × DbusRequest) := []
  loop : LoopState := .idle
  /-- the requests whose effects the controller has performed, in order -/
  performed : List (CallId × DbusRequest) := []
  /-- the calls to whose reply channel the controller has sent -/
  replies : List CallId := []

inductive BusEvent where
  | call (id : CallId) (request : DbusRequest)
  | send (id : CallId)
  | timeout (id : CallId)
  | tickStart
  | tickEnd
  | take
  | reply
deriving DecidableEq, Repr

/-- the bound of the request channel -/
def channelCapacity : ℕ := 1

def busStep (b : Bus) : BusEvent → Bus
  | .call id request =>
    match b.calls id with
    | none => { b with calls := Function.update b.calls id (some (.sending request)) }
    | some _ => b
  | .send id =>
    match b.calls id with
    | some (.sending request) =>
      if b.channel.length < channelCapacity then
        { b with
          calls := Function.update b.calls id (some (.waiting request))
          channel := b.channel ++ [(id, request)] }
      else b
    | _ => b
  | .timeout id =>
    match b.calls id with
    | some (.waiting _) => { b with calls := Function.update b.calls id (some .failed) }
    | _ => b
  | .tickStart => if b.loop = .idle then { b with loop := .ticking } else b
  | .tickEnd => if b.loop = .ticking then { b with loop := .idle } else b
  | .take =>
    match b.loop, b.channel with
    | .idle, (id, request) :: channel =>
      -- `handle_dbus_request` runs at once; it does not ask whether anybody still waits
      { b with channel, loop := .serving id request, performed := b.performed ++ [(id, request)] }
    | _, _ => b
  | .reply =>
    match b.loop with
    | .serving id _ =>
      -- `let _ = reply.send(result)`: dropped when the caller has gone
      let calls := match b.calls id with
        | some (.waiting _) => Function.update b.calls id (some .answered)
        | _ => b.calls
      { b with calls, loop := .idle, replies := b.replies ++ [id] }
    | _ => b

end IoThreadController
