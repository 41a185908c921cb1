/-
Discovery by control sockets (`backends/mod.rs`), and the host on which it runs.

- `SocketHost`: socket files and the processes that listen on them. A process keeps the socket that it has bound; pids and
  paths are taken again by others, at any time.
- `Finder`: the peers that earlier passes have identified, and the pass that is going on. A lookup is four steps: the
  metadata of the socket, the cached peer, the connection, the start time of its peer. The host goes on between any two.

Paths are the names on them, so that the directory of a socket is a prefix of its path. One backend discovers so, so that its
passes follow one another.
-/
import Mathlib.Data.List.Infix
import Mathlib.Logic.Function.Basic
import IoThreadController.Model.Base

namespace IoThreadController

abbrev SockPath := List String

/-! ## Host -/

/-- a process; its pid may be taken again, later -/
structure Peer where
  pid : ℤ
  startTime : ℕ
deriving DecidableEq, Repr

structure SocketFile where
  dev : ℕ
  ino : ℕ
  /-- the process that listens on it -/
  owner : Peer
deriving DecidableEq, Repr

structure SocketHost where
  /-- the start time of the next process -/
  clock : ℕ := 0
  /-- the start times of the processes that are there -/
  processes : ℤ → Option ℕ := fun _ => none
  files : SockPath → Option SocketFile := fun _ => none
  /-- the files that have been there, by path, device and inode -/
  bound : List (SockPath × ℕ × ℕ) := []

inductive SocketHostEvent where
  | start (pid : ℤ)
  | exit (pid : ℤ)
  /-- a process binds a new socket file and listens on it, in the place of what is there -/
  | bind (path : SockPath) (dev ino : ℕ) (pid : ℤ)
  | unlink (path : SockPath)
deriving DecidableEq, Repr

namespace SocketHost

def step (h : SocketHost) : SocketHostEvent → SocketHost
  | .start pid =>
    match h.processes pid with
    | some _ => h
    | none => { h with clock := h.clock + 1, processes := Function.update h.processes pid (some h.clock) }
  | .exit pid => { h with processes := Function.update h.processes pid none }
  | .bind path dev ino pid =>
    match h.processes pid with
    | none => h
    | some startTime =>
      { h with
        files := Function.update h.files path (some ⟨dev, ino, ⟨pid, startTime⟩⟩)
        bound := (path, dev, ino) :: h.bound }
  | .unlink path => { h with files := Function.update h.files path none }

/-- the process is there, and no other one with its pid -/
def Alive (h : SocketHost) (p : Peer) : Prop := h.processes p.pid = some p.startTime

instance (h : SocketHost) (p : Peer) : Decidable (h.Alive p) := by unfold Alive; infer_instance

/-- the process that a connection would reach -/
def peer (h : SocketHost) (path : SockPath) : Option ℤ :=
  (h.files path).bind fun f => if h.Alive f.owner then some f.owner.pid else none

end SocketHost

/-! ## Connections -/

inductive IoErrorKind where
  | notFound
  | wouldBlock
  | connectionRefused
  | invalidData
deriving DecidableEq, Repr

/-- how the kernel and the listener answer -/
inductive ConnectAnswer where
  | accepted
  /-- the backlog is full -/
  | busy
  /-- the credentials have no pid -/
  | noPid
deriving DecidableEq, Repr

def controlSocketPeerPid (h : SocketHost) (path : SockPath) (answer : ConnectAnswer) : Except IoErrorKind ℤ :=
  match h.files path with
  | none => .error .notFound
  | some f =>
    if h.Alive f.owner then
      match answer with
      | .accepted => .ok f.owner.pid
      | .busy => .error .wouldBlock
      | .noPid => .error .invalidData
    else .error .connectionRefused

/-! ## Lookups and passes -/

structure CachedPeer where
  dev : ℕ
  ino : ℕ
  pid : ℤ
  startTime : ℕ
deriving DecidableEq, Repr

/-- where `cached_control_socket_peer_pid` is -/
inductive Lookup where
  | metadata
  | cached (dev ino : ℕ)
  | connect (dev ino : ℕ)
  | insert (dev ino : ℕ) (pid : ℤ)
deriving DecidableEq, Repr

/-- one instance that a pass has found -/
structure FoundVm where
  id : VmId
  sockPath : SockPath
  pid : ℤ
deriving DecidableEq, Repr

structure SocketPass where
  dir : SockPath
  socketName : String
  instances : List FoundVm := []
  seen : List SockPath := []
  /-- the entry that is looked up -/
  entry : Option (VmId × Lookup) := none
deriving DecidableEq, Repr

def SocketPass.sockPath (p : SocketPass) (id : VmId) : SockPath := p.dir ++ [id, p.socketName]

/-- the peer of the socket is forgotten at the end of the pass -/
def SocketPass.drops (p : SocketPass) (path : SockPath) : Bool := p.dir <+: path ∧ path ∉ p.seen

/-- an entry of the directory; `none` is metadata that cannot be read, and a name that is no text -/
structure DirEntry where
  isDir : Option Bool
  name : Option String
deriving DecidableEq, Repr

structure Finder where
  host : SocketHost := {}
  /-- `PEER_CACHE` -/
  cache : SockPath → Option CachedPeer := fun _ => none
  pass : Option SocketPass := none
  /-- what the passes have returned, the latest first; `none` is an error -/
  returned : List (Option (List FoundVm)) := []
  /-- the connections that have been made -/
  connected : List SockPath := []

inductive FinderEvent where
  | host (event : SocketHostEvent)
  | readDir (dir : SockPath) (socketName : String) (readable : Bool)
  /-- `next_entry`; `none` is the end of the directory -/
  | nextEntry (entry : Except Unit (Option DirEntry))
  /-- the next step of the lookup -/
  | lookup (answer : ConnectAnswer)
deriving DecidableEq

namespace Finder

/-- the lookup goes on -/
def goOn (s : Finder) (p : SocketPass) (id : VmId) (l : Lookup) : Finder :=
  { s with pass := some { p with entry := some (id, l) } }

/-- the entry is left out; busy sockets and those that are gone are not even warned about -/
def skip (s : Finder) (p : SocketPass) : Finder := { s with pass := some { p with entry := none } }

def found (s : Finder) (p : SocketPass) (id : VmId) (pid : ℤ) : Finder :=
  { s with
    pass := some
      { p with
        instances := p.instances ++ [⟨id, p.sockPath id, pid⟩]
        seen := p.seen ++ [p.sockPath id]
        entry := none } }

/-- one step of `cached_control_socket_peer_pid` -/
def lookupStep (s : Finder) (p : SocketPass) (id : VmId) (answer : ConnectAnswer) : Lookup → Finder
  | .metadata =>
    match s.host.files (p.sockPath id) with
    | none => s.skip p
    | some f => s.goOn p id (.cached f.dev f.ino)
  | .cached dev ino =>
    match s.cache (p.sockPath id) with
    | none => s.goOn p id (.connect dev ino)
    | some peer =>
      if peer.dev = dev ∧ peer.ino = ino ∧ s.host.Alive ⟨peer.pid, peer.startTime⟩ then s.found p id peer.pid
      else s.goOn p id (.connect dev ino)
  | .connect dev ino =>
    match controlSocketPeerPid s.host (p.sockPath id) answer with
    | .error _ => s.skip p
    | .ok pid => { s.goOn p id (.insert dev ino pid) with connected := p.sockPath id :: s.connected }
  | .insert dev ino pid =>
    match s.host.processes pid with
    | none => s.found p id pid
    | some startTime =>
      { s.found p id pid with cache := Function.update s.cache (p.sockPath id) (some ⟨dev, ino, pid, startTime⟩) }

/-- `retain`: of the sockets under the directory only those that the pass has seen stay -/
def retain (cache : SockPath → Option CachedPeer) (p : SocketPass) (path : SockPath) : Option CachedPeer :=
  if p.drops path then none else cache path

/-- `discover_via_control_socket`, a step at a time, on a host that goes on -/
def step (s : Finder) (e : FinderEvent) : Finder :=
  match e, s.pass with
  | .host event, _ => { s with host := s.host.step event }
  | .readDir dir socketName readable, none =>
    if readable then { s with pass := some { dir, socketName } } else { s with returned := some [] :: s.returned }
  | .nextEntry entry, some p =>
    match p.entry, entry with
    | none, .error _ => { s with pass := none, returned := none :: s.returned }
    | none, .ok none => { s with pass := none, cache := retain s.cache p, returned := some p.instances :: s.returned }
    | none, .ok (some ⟨some true, some id⟩) => s.goOn p id .metadata
    | _, _ => s
  | .lookup answer, some p =>
    match p.entry with
    | none => s
    | some (id, l) => s.lookupStep p id answer l
  | _, _ => s

end Finder

end IoThreadController
