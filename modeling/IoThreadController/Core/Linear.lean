/-
Linearizable histories: calls that overlap in time look as if they had been served one after the other, each at one point
between its call and its return.

- `Linearizes`: what an order of service must say of a history. A call without a return may be served or not.
- `Sequential`: an object that serves one call at a time, and takes steps of its own in between.
- `Placed`: a run with its points of service marked, each after its call and before its return.
- `Placed.linearizes`: the points of such a run explain what its callers see, in the order of the run.
-/
import Mathlib.Data.List.Nodup

namespace IoThreadController.Core

variable {ι ρ α σ : Type*}

/-! ## Histories -/

/-- what a caller sees -/
inductive Visible (ι ρ α : Type*) where
  | called (id : ι) (request : ρ)
  | returned (id : ι) (reply : α)

/-- a call with its reply -/
structure Served (ι ρ α : Type*) where
  id : ι
  request : ρ
  reply : α

/-- `a` had returned when `b` was called -/
def ReturnedBefore (history : List (Visible ι ρ α)) (a b : ι) : Prop :=
  ∃ reply request, [.returned a reply, .called b request].Sublist history

/-- `order` explains `history`: it serves calls of the history, no call twice, among them every call that has returned,
with the reply that it got; and no call before one that had returned when it was made -/
structure Linearizes (order : List (Served ι ρ α)) (history : List (Visible ι ρ α)) : Prop where
  once : (order.map Served.id).Nodup
  called : ∀ s ∈ order, .called s.id s.request ∈ history
  returned : ∀ id reply, .returned id reply ∈ history → ∃ s ∈ order, s.id = id ∧ s.reply = reply
  realTime : order.Pairwise fun a b => ¬ ReturnedBefore history b.id a.id

/-! ## Objects -/

/-- what an object does: a step of its own, or the service of a call -/
inductive Turn (ι ρ α : Type*) where
  | own
  | served (call : Served ι ρ α)

def Turn.served? : Turn ι ρ α → Option (Served ι ρ α)
  | .own => none
  | .served call => some call

section
variable (own : σ → σ → Prop) (serves : σ → ρ → α → σ → Prop)

/-- one turn of the object -/
def Turns (s : σ) : Turn ι ρ α → σ → Prop
  | .own, t => own s t
  | .served call, t => serves s call.request call.reply t

/-- the object goes from `s` to `t`, one turn after the other -/
inductive Sequential (s : σ) : List (Turn ι ρ α) → σ → Prop where
  | start : Sequential s [] s
  | turn {turns : List (Turn ι ρ α)} {t u : σ} (before : Sequential s turns t) (turn : Turn ι ρ α)
      (h : Turns own serves t turn u) : Sequential s (turns ++ [turn]) u

end

/-! ## Points of service -/

/-- one mark of a run: of a caller, or of the object -/
inductive Mark (ι ρ α : Type*) where
  | visible (event : Visible ι ρ α)
  | turn (turn : Turn ι ρ α)

def Mark.visible? : Mark ι ρ α → Option (Visible ι ρ α)
  | .visible event => some event
  | .turn _ => none

def Mark.turn? : Mark ι ρ α → Option (Turn ι ρ α)
  | .visible _ => none
  | .turn t => some t

/-- a trace has the latest mark first -/
def historyOf (trace : List (Mark ι ρ α)) : List (Visible ι ρ α) := (trace.filterMap Mark.visible?).reverse

def turnsOf (trace : List (Mark ι ρ α)) : List (Turn ι ρ α) := (trace.filterMap Mark.turn?).reverse

def orderOf (trace : List (Mark ι ρ α)) : List (Served ι ρ α) := (turnsOf trace).filterMap Turn.served?

/-- every call is new, every call is served once at most and after it was made, and what returns is what the service said -/
inductive Placed : List (Mark ι ρ α) → Prop where
  | nil : Placed []
  | called {trace : List (Mark ι ρ α)} (before : Placed trace) (id : ι) (request : ρ)
      (hnew : ∀ request', .called id request' ∉ historyOf trace) :
      Placed (.visible (.called id request) :: trace)
  | returned {trace : List (Mark ι ρ α)} (before : Placed trace) (call : Served ι ρ α) (hserved : call ∈ orderOf trace) :
      Placed (.visible (.returned call.id call.reply) :: trace)
  | served {trace : List (Mark ι ρ α)} (before : Placed trace) (call : Served ι ρ α)
      (hcalled : .called call.id call.request ∈ historyOf trace) (honce : call.id ∉ (orderOf trace).map Served.id) :
      Placed (.turn (.served call) :: trace)
  | own {trace : List (Mark ι ρ α)} (before : Placed trace) : Placed (.turn .own :: trace)

section
variable (trace : List (Mark ι ρ α))

@[simp] theorem historyOf_visible (event : Visible ι ρ α) :
    historyOf (.visible event :: trace) = historyOf trace ++ [event] := by
  simp [historyOf, Mark.visible?]

@[simp] theorem historyOf_turn (turn : Turn ι ρ α) : historyOf (.turn turn :: trace) = historyOf trace := by
  rw [historyOf, List.filterMap_cons_none rfl, historyOf]

@[simp] theorem turnsOf_visible (event : Visible ι ρ α) : turnsOf (.visible event :: trace) = turnsOf trace := by
  rw [turnsOf, List.filterMap_cons_none rfl, turnsOf]

@[simp] theorem turnsOf_turn (turn : Turn ι ρ α) : turnsOf (.turn turn :: trace) = turnsOf trace ++ [turn] := by
  simp [turnsOf, Mark.turn?]

@[simp] theorem orderOf_visible (event : Visible ι ρ α) : orderOf (.visible event :: trace) = orderOf trace := by
  simp [orderOf]

@[simp] theorem orderOf_own : orderOf (.turn .own :: trace) = orderOf trace := by
  simp [orderOf, Turn.served?]

@[simp] theorem orderOf_served (call : Served ι ρ α) : orderOf (.turn (.served call) :: trace) = orderOf trace ++ [call] := by
  simp [orderOf, Turn.served?]

end

/-- a later event makes no earlier return precede a call that was not made by it -/
theorem returnedBefore_concat {history : List (Visible ι ρ α)} {event : Visible ι ρ α} {a b : ι}
    (h : ReturnedBefore (history ++ [event]) a b) (hne : ∀ request, event ≠ .called b request) :
    ReturnedBefore history a b := by
  obtain ⟨reply, request, hsub⟩ := h
  refine ⟨reply, request, ?_⟩
  have hrev : [.called b request, .returned a reply].Sublist (event :: history.reverse) := by
    simpa using List.reverse_sublist.2 hsub
  rcases List.sublist_cons_iff.1 hrev with hold | ⟨rest, heq, -⟩
  · simpa using List.reverse_sublist.2 hold
  · rw [List.cons.injEq] at heq
    exact absurd heq.1.symm (hne request)

/-- the points of service of a run explain its history -/
theorem Placed.linearizes {trace : List (Mark ι ρ α)} (h : Placed trace) : Linearizes (orderOf trace) (historyOf trace) := by
  induction h with
  | nil =>
    refine ⟨by simp [orderOf, turnsOf], by simp [orderOf, turnsOf], by simp [historyOf], by simp [orderOf, turnsOf]⟩
  | @called trace _ id request hnew ih =>
    rw [orderOf_visible, historyOf_visible]
    refine ⟨ih.once, fun s hs => List.mem_append_left _ (ih.called s hs), fun id' reply hreturned => ?_, ?_⟩
    · exact ih.returned id' reply (by simpa using hreturned)
    · refine ih.realTime.imp_of_mem fun {a b} ha _ hab hreturned => hab (returnedBefore_concat hreturned ?_)
      -- a call that has been served is not new
      rintro request' heq
      rw [Visible.called.injEq] at heq
      exact hnew a.request (heq.1 ▸ ih.called a ha)
  | @returned trace _ call hserved ih =>
    rw [orderOf_visible, historyOf_visible]
    refine ⟨ih.once, fun s hs => List.mem_append_left _ (ih.called s hs), fun id reply hreturned => ?_, ?_⟩
    · rcases List.mem_append.1 hreturned with hold | hnow
      · exact ih.returned id reply hold
      · have heq : id = call.id ∧ reply = call.reply := by simpa using hnow
        exact ⟨call, hserved, heq.1.symm, heq.2.symm⟩
    · exact ih.realTime.imp fun {a b} hab hreturned => hab (returnedBefore_concat hreturned (by simp))
  | @served trace _ call hcalled honce ih =>
    rw [orderOf_served, historyOf_turn]
    refine ⟨?_, ?_, fun id reply hreturned => ?_, ?_⟩
    · rw [List.map_append, List.map_singleton, ← List.concat_eq_append]
      exact ih.once.concat honce
    · intro s hs
      rcases List.mem_append.1 hs with hold | hnow
      · exact ih.called s hold
      · rw [List.mem_singleton.1 hnow]
        exact hcalled
    · obtain ⟨s, hs, heq⟩ := ih.returned id reply hreturned
      exact ⟨s, List.mem_append_left _ hs, heq⟩
    · rw [List.pairwise_append]
      refine ⟨ih.realTime, List.pairwise_singleton _ _, fun a ha b hb hreturned => ?_⟩
      -- the call that is served now has not returned
      rw [List.mem_singleton.1 hb] at hreturned
      obtain ⟨reply, request, hsub⟩ := hreturned
      obtain ⟨s, hs, hid, -⟩ := ih.returned call.id reply (hsub.subset List.mem_cons_self)
      exact honce (hid ▸ List.mem_map_of_mem hs)
  | own _ ih =>
    rwa [orderOf_own, historyOf_turn]

end IoThreadController.Core
