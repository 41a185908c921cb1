/-
What a box around a client forwards.

The trait has eight operations; the implementation for boxes writes four of them out and leaves the other four to the
trait's default bodies, which answer that the operation is not supported. A record holds its client in a box, so those
four never reach the client.

- `stored_call_iff`: a boxed call is the client's own exactly when it is forwarded or the client itself has the default.
- `boxing_transparent_iff`: the same for all clients, with what follows for the D-Bus verbs of a QEMU VM.
-/
import IoThreadController.Model.Dbus
import IoThreadController.Qemu.Commands

namespace IoThreadController

namespace ClientCall

/-- the operations that a box forwards -/
def isForwarded : ClientCall → Bool
  | .setThreadCount _ | .getThreadPoolSnapshot | .initialPoolIsManaged .. | .close => true
  | .addIoThread .. | .delIoThread _ | .setIoThreadVqMapping .. | .getIoThreadVqMapping _ => false

/-- the answer of the trait's default body, for the operations that a client may leave unsupported -/
def unsupported : ClientCall → Option ClientReply
  | .addIoThread .. => some (.unit (.error (notSupported "add IOThread")))
  | .delIoThread _ => some (.unit (.error (notSupported "delete IOThread")))
  | .setIoThreadVqMapping .. => some (.unit (.error (notSupported "set IOThread virtqueue mapping")))
  | .getIoThreadVqMapping _ => some (.mapping (.error (notSupported "get IOThread virtqueue mapping")))
  | .setThreadCount _ | .getThreadPoolSnapshot | .initialPoolIsManaged .. | .close => none

end ClientCall

namespace InstanceClient

variable {σ : Type} (c : InstanceClient σ)

/-- a forwarded operation is the client's own, through any number of boxes -/
theorem boxed_call_forwarded {call : ClientCall} (h : call.isForwarded = true) (s : σ) :
    c.boxed.call call s = c.call call s := by
  cases call with
  | setThreadCount count => rfl
  | getThreadPoolSnapshot => rfl
  | initialPoolIsManaged threadCount vcpuCount => rfl
  | close => rfl
  | addIoThread id properties => cases h
  | delIoThread id => cases h
  | setIoThreadVqMapping device mapping => cases h
  | getIoThreadVqMapping device => cases h

/-- any other operation is answered by the box -/
theorem boxed_call_unsupported {call : ClientCall} (h : call.isForwarded = false) (s : σ) :
    ∃ reply, call.unsupported = some reply ∧ c.boxed.call call s = (s, reply) := by
  cases call with
  | setThreadCount count => cases h
  | getThreadPoolSnapshot => cases h
  | initialPoolIsManaged threadCount vcpuCount => cases h
  | close => cases h
  | addIoThread id properties => exact ⟨_, rfl, rfl⟩
  | delIoThread id => exact ⟨_, rfl, rfl⟩
  | setIoThreadVqMapping device mapping => exact ⟨_, rfl, rfl⟩
  | getIoThreadVqMapping device => exact ⟨_, rfl, rfl⟩

theorem stored_call_iff (call : ClientCall) (s : σ) :
    c.stored.call call s = c.call call s ↔
      call.isForwarded = true ∨ ∃ reply, call.unsupported = some reply ∧ c.call call s = (s, reply) := by
  cases hf : call.isForwarded with
  | true =>
    refine iff_of_true ?_ (Or.inl rfl)
    rw [stored, boxed_call_forwarded _ hf, boxed_call_forwarded _ hf]
  | false =>
    obtain ⟨reply, hreply, hbox⟩ := c.boxed.boxed_call_unsupported hf s
    rw [stored, hbox]
    constructor
    · intro h
      exact Or.inr ⟨reply, hreply, h.symm⟩
    · intro h
      obtain h | ⟨reply', hreply', hown⟩ := h
      · cases h
      · rw [hreply, Option.some.injEq] at hreply'
        rw [hown, hreply']

end InstanceClient

/-! ## QEMU VMs -/

/-- every issued command is logged, so a call that issues one changes the client -/
theorem LibvirtQmp.execute_ne (qmp : LibvirtQmp) (command : QmpCommand) : (qmp.execute command).1 ≠ qmp := by
  intro h
  have hlen : (qmp.execute command).1.log.length = qmp.log.length + 1 := by
    rcases qmp.execute_cases command with ⟨error, heq, -⟩ | ⟨qemu, -, -, heq⟩
    · rw [heq]; simp
    · rw [heq]; simp
  rw [h] at hlen
  omega

section Qemu

variable (resize : ℕ → QemuInstanceClient → QemuInstanceClient × Except BackendClientError Unit)
  (snapshot : QemuInstanceClient → QemuInstanceClient × Except BackendClientError ThreadPoolSnapshot)

/-- the QEMU client supports every IOThread operation: it refuses blank arguments with texts of its own, and else
issues a command -/
theorem qemu_call_supported {call : ClientCall} (s : QemuInstanceClient) {reply : ClientReply}
    (h : call.unsupported = some reply) :
    (QemuInstanceClient.instanceClient resize snapshot).call call s ≠ (s, reply) := by
  have hissued : ∀ {command : QmpCommand} {reply' : ClientReply},
      (({ s with client := (s.client.execute command).1 } : QemuInstanceClient), reply') ≠ (s, reply) := by
    intro command reply' heq
    exact s.client.execute_ne command (congrArg QemuInstanceClient.client (Prod.mk.inj heq).1)
  have refused : ∀ {text operation : String}, text ≠ notSupported operation →
      (s, ClientReply.unit (.error text)) ≠ (s, .unit (.error (notSupported operation))) := by
    intro text operation hne heq
    simp only [Prod.mk.injEq, ClientReply.unit.injEq, Except.error.injEq, true_and] at heq
    exact hne heq
  cases call with
  | setThreadCount count => cases h
  | getThreadPoolSnapshot => cases h
  | initialPoolIsManaged threadCount vcpuCount => cases h
  | close => cases h
  | addIoThread id properties =>
    cases h
    simp only [InstanceClient.call, QemuInstanceClient.instanceClient, LibvirtQmp.addIoThread]
    split_ifs with hblank
    · exact refused (by decide +kernel)
    · exact hissued
  | delIoThread id =>
    cases h
    simp only [InstanceClient.call, QemuInstanceClient.instanceClient, LibvirtQmp.delIoThread]
    split_ifs with hblank
    · exact refused (by decide +kernel)
    · exact hissued
  | setIoThreadVqMapping device mapping =>
    cases h
    simp only [InstanceClient.call, QemuInstanceClient.instanceClient, LibvirtQmp.setVqMapping]
    split_ifs with hblank hnil
    · exact refused (by decide +kernel)
    · exact refused (by decide +kernel)
    · exact hissued
  | getIoThreadVqMapping device =>
    cases h
    simp only [InstanceClient.call, QemuInstanceClient.instanceClient, LibvirtQmp.queryVqMapping]
    split_ifs with hblank
    · intro heq
      simp only [Except.mapError, Prod.mk.injEq, ClientReply.mapping.injEq, Except.error.injEq] at heq
      exact absurd heq.2 (by decide +kernel)
    · rcases hexec : s.client.execute (.qomGet device) with ⟨client, result⟩
      have hne := @hissued (.qomGet device)
      rw [hexec] at hne
      cases result <;> exact hne

end Qemu

/-! ## Every client, and the D-Bus verbs -/

/-- the requests that the IOThread verbs send -/
def DbusRequest.isIoThreadVerb : DbusRequest → Bool
  | .getIoThreadVqMapping .. | .addIoThread .. | .delIoThread .. | .setIoThreadVqMapping .. => true
  | .setThreadCount .. | .setAllThreadCounts .. | .getStats | .getSnapshot | .getVersion => false

theorem handleIoThreadVerb_stored {σ : Type} (J : MappingJson) (own : VmId → Option (InstanceClient σ)) (s : σ)
    (request : DbusRequest) :
    (handleIoThreadVerb J (fun vm => (own vm).map InstanceClient.stored) s request).map Prod.fst =
      if request.isIoThreadVerb then some s else none := by
  cases request with
  | getIoThreadVqMapping vm device =>
    cases hc : own vm <;>
      simp [handleIoThreadVerb, DbusRequest.isIoThreadVerb, hc, InstanceClient.stored, InstanceClient.boxed]
  | addIoThread vm id pollMaxNs =>
    cases hc : own vm <;>
      simp [handleIoThreadVerb, DbusRequest.isIoThreadVerb, hc, InstanceClient.stored, InstanceClient.boxed]
  | delIoThread vm id =>
    cases hc : own vm <;>
      simp [handleIoThreadVerb, DbusRequest.isIoThreadVerb, hc, InstanceClient.stored, InstanceClient.boxed]
  | setIoThreadVqMapping vm device mappingJson =>
    cases hp : J.fromStr mappingJson with
    | error error => simp [handleIoThreadVerb, DbusRequest.isIoThreadVerb, hp]
    | ok mapping =>
      cases hc : own vm <;>
        simp [handleIoThreadVerb, DbusRequest.isIoThreadVerb, hp, hc, InstanceClient.stored, InstanceClient.boxed]
  | setThreadCount vm threads sticky => rfl
  | setAllThreadCounts threads sticky => rfl
  | getStats => rfl
  | getSnapshot => rfl
  | getVersion => rfl

/-- a box is transparent for an operation exactly when it forwards it or the client leaves it unsupported; for a QEMU
client, which supports them all, exactly when it forwards it; and no IOThread verb of the bus reaches any client -/
theorem boxing_transparent_iff {σ : Type} (c : InstanceClient σ) (call : ClientCall) (s : σ) :
    (c.stored.call call s = c.call call s ↔
      call.isForwarded = true ∨ ∃ reply, call.unsupported = some reply ∧ c.call call s = (s, reply)) ∧
    (∀ resize snapshot s, (QemuInstanceClient.instanceClient resize snapshot).stored.call call s =
      (QemuInstanceClient.instanceClient resize snapshot).call call s ↔ call.isForwarded = true) ∧
    ∀ (J : MappingJson) (own : VmId → Option (InstanceClient σ)) (request : DbusRequest),
      (handleIoThreadVerb J (fun vm => (own vm).map InstanceClient.stored) s request).map Prod.fst =
        if request.isIoThreadVerb then some s else none := by
  refine ⟨c.stored_call_iff call s, ?_, fun J own request => handleIoThreadVerb_stored J own s request⟩
  intro resize snapshot s
  rw [InstanceClient.stored_call_iff]
  constructor
  · intro h
    obtain h | ⟨reply, hreply, hown⟩ := h
    · exact h
    · exact absurd hown (qemu_call_supported resize snapshot s hreply)
  · exact Or.inl

/-- adding an IOThread to a QEMU VM: the client does it, the stored box answers that the backend cannot -/
theorem boxing_drops_addIoThread :
    let s : QemuInstanceClient := ⟨⟨fun _ => none, {}, []⟩, {}, 0⟩
    let c := QemuInstanceClient.instanceClient (fun _ s => (s, .ok ())) fun s => (s, .error "no metrics")
    (c.addIoThread "iot0" none s).1.client.qemu.iothreads = {"iot0"} ∧
      (c.addIoThread "iot0" none s).2.toOption = some () ∧
      (c.stored.addIoThread "iot0" none s).1 = s ∧
      (c.stored.addIoThread "iot0" none s).2 = .error "operation not supported on this backend: add IOThread" := by
  refine ⟨by decide +kernel, by decide +kernel, rfl, by decide +kernel⟩

end IoThreadController
