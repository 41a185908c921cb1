/-
Backend clients as the controller sees them (`instance.rs`): the trait, its default bodies, and the forwarding
implementation for boxes.

A client and everything it talks to is one state `σ`; every operation maps it to a new state and a result. The fields
with a default value are the trait's methods with a default body, so that a client which leaves one out behaves as the
source's does. `QemuInstanceClient.instanceClient` is the QEMU backend's implementation.
-/
import IoThreadController.Model.Qemu

namespace IoThreadController

/-- the text of `BackendClientError::NotSupported` -/
def notSupported (operation : String) : BackendClientError :=
  "operation not supported on this backend: " ++ operation

structure InstanceClient (σ : Type) where
  setThreadCount : ℕ → σ → σ × Except BackendClientError Unit
  getThreadPoolSnapshot : σ → σ × Except BackendClientError ThreadPoolSnapshot
  initialPoolIsManaged : ℕ → ℕ → σ → Bool := fun _ _ _ => true
  close : σ → σ
  addIoThread : String → Option IoThreadProperties → σ → σ × Except BackendClientError Unit :=
    fun _ _ s => (s, .error (notSupported "add IOThread"))
  delIoThread : String → σ → σ × Except BackendClientError Unit :=
    fun _ s => (s, .error (notSupported "delete IOThread"))
  setIoThreadVqMapping : String → List VqMapping → σ → σ × Except BackendClientError Unit :=
    fun _ _ s => (s, .error (notSupported "set IOThread virtqueue mapping"))
  getIoThreadVqMapping : String → σ → σ × Except BackendClientError (List VqMapping) :=
    fun _ s => (s, .error (notSupported "get IOThread virtqueue mapping"))

/-- one operation of the trait with its arguments -/
inductive ClientCall where
  | setThreadCount (count : ℕ)
  | getThreadPoolSnapshot
  | initialPoolIsManaged (threadCount vcpuCount : ℕ)
  | close
  | addIoThread (id : String) (properties : Option IoThreadProperties)
  | delIoThread (id : String)
  | setIoThreadVqMapping (device : String) (mapping : List VqMapping)
  | getIoThreadVqMapping (device : String)
deriving DecidableEq, Repr

inductive ClientReply where
  | unit (result : Except BackendClientError Unit)
  | snapshot (result : Except BackendClientError ThreadPoolSnapshot)
  | managed (answer : Bool)
  | closed
  | mapping (result : Except BackendClientError (List VqMapping))

namespace InstanceClient

variable {σ : Type}

/-- the effect and the result of one operation -/
def call (c : InstanceClient σ) : ClientCall → σ → σ × ClientReply
  | .setThreadCount count, s => ((c.setThreadCount count s).1, .unit (c.setThreadCount count s).2)
  | .getThreadPoolSnapshot, s => ((c.getThreadPoolSnapshot s).1, .snapshot (c.getThreadPoolSnapshot s).2)
  | .initialPoolIsManaged threadCount vcpuCount, s => (s, .managed (c.initialPoolIsManaged threadCount vcpuCount s))
  | .close, s => (c.close s, .closed)
  | .addIoThread id properties, s => ((c.addIoThread id properties s).1, .unit (c.addIoThread id properties s).2)
  | .delIoThread id, s => ((c.delIoThread id s).1, .unit (c.delIoThread id s).2)
  | .setIoThreadVqMapping device mapping, s =>
    ((c.setIoThreadVqMapping device mapping s).1, .unit (c.setIoThreadVqMapping device mapping s).2)
  | .getIoThreadVqMapping device, s =>
    ((c.getIoThreadVqMapping device s).1, .mapping (c.getIoThreadVqMapping device s).2)

/-- `impl InstanceClient for Box<T>`: the methods it writes out; the others are the trait's defaults -/
def boxed (c : InstanceClient σ) : InstanceClient σ where
  setThreadCount := c.setThreadCount
  getThreadPoolSnapshot := c.getThreadPoolSnapshot
  initialPoolIsManaged := c.initialPoolIsManaged
  close := c.close

/-- the client that a record holds: the backend passes a box, and `Instance::new` boxes what it is passed -/
def stored (c : InstanceClient σ) : InstanceClient σ := c.boxed.boxed

end InstanceClient

/-- `impl InstanceClient for QemuInstanceClient`; the resize and the snapshot are parameters of this view -/
def QemuInstanceClient.instanceClient
    (resize : ℕ → QemuInstanceClient → QemuInstanceClient × Except BackendClientError Unit)
    (snapshot : QemuInstanceClient → QemuInstanceClient × Except BackendClientError ThreadPoolSnapshot) :
    InstanceClient QemuInstanceClient where
  setThreadCount := resize
  getThreadPoolSnapshot := snapshot
  close s := s
  addIoThread id properties s :=
    ({ s with client := (s.client.addIoThread id properties).1 },
      (s.client.addIoThread id properties).2.mapError QemuError.toBackendClientError)
  delIoThread id s :=
    ({ s with client := (s.client.delIoThread id).1 },
      (s.client.delIoThread id).2.mapError QemuError.toBackendClientError)
  setIoThreadVqMapping device mapping s :=
    ({ s with client := (s.client.setVqMapping device mapping).1 },
      (s.client.setVqMapping device mapping).2.mapError QemuError.toBackendClientError)
  getIoThreadVqMapping device s :=
    ({ s with client := (s.client.queryVqMapping device).1 },
      (s.client.queryVqMapping device).2.mapError QemuError.toBackendClientError)

end IoThreadController
