/-
The cooldown between automatic actions.

The history variable `noteActions` remembers, for every VM since it is tracked, when its latest automatic action happened.
It is parametric in the clock reading that counts as that time.

- `step_cooldown_kept`: only an applied automatic action writes the deadline of a record.
- `Armed`: the invariant. The deadline of a VM is its latest action plus the cooldown.
- `cooldown_separates`: in every run of every engine the actions of a VM are a cooldown apart, a cooldown rejects no revert,
  and nothing shortens a deadline, when a dry run happens at the reading that arms its cooldown.
- `dry_run_early`: a dry run reports a later reading, and from there the next action can come too early.
-/
import IoThreadController.Fleet.Requests

namespace IoThreadController

variable {E : ScalingEngine}

/-! ## Applied actions -/

/-- the time that an applied outcome reports -/
def reportedAt (_ : AttemptEnv) : AppliedOutcome → Option Instant
  | .success _ _ _ appliedAt | .dryRun _ _ _ appliedAt => some appliedAt
  | .blocked .. | .failed .. => none

/-- the time that an applied outcome counts its cooldown from; a dry run takes a reading of its own for it -/
def armedAt (env : AttemptEnv) : AppliedOutcome → Option Instant
  | .success _ _ _ appliedAt => some appliedAt
  | .dryRun .. => some env.cooldownAt
  | .blocked .. | .failed .. => none

/-- the automatic action that an event attempts on a VM: the clock readings of the attempt and its outcome -/
def Event.outcome (c : Controller E) (id : VmId) : Event → Option (AttemptEnv × AppliedOutcome)
  | .tick env => (c.tickOutcome env id).map fun o => (env.attempt id, o)
  | .sync .. | .setThreadCount .. | .setAllThreadCounts .. | .query => none

/-- only ticks attempt automatic actions -/
theorem Event.outcome_some {c : Controller E} {id : VmId} {ev : Event} {r : AttemptEnv × AppliedOutcome}
    (h : ev.outcome c id = some r) :
    ∃ env, ev = .tick env ∧ c.tickOutcome env id = some r.2 ∧ r.1 = env.attempt id := by
  cases ev with
  | tick env =>
    obtain ⟨o, ho, rfl⟩ := Option.map_eq_some_iff.1 h
    exact ⟨env, rfl, ho, rfl⟩
  | sync ds order => cases h
  | setThreadCount vm threads sticky backend => cases h
  | setAllThreadCounts threads sticky backend order => cases h
  | query => cases h

theorem Event.outcome_request {c : Controller E} {id : VmId} {ev : Event} (hreq : ev.isRequest = true) :
    ev.outcome c id = none := by
  rw [Option.eq_none_iff_forall_ne_some]
  intro r hr
  obtain ⟨env, rfl, -⟩ := outcome_some hr
  simp [isRequest] at hreq

/-- when the latest automatic action on a VM happened, since the VM is tracked -/
abbrev LastActions := VmId → Option Instant

def noteActions (clock : AttemptEnv → AppliedOutcome → Option Instant) :
    Option (Controller E) → Event → LastActions → LastActions
  | none, _, last => last
  | some c, ev, last => fun id =>
    if ((c.step ev).1.instances id).isNone then none
    else ((ev.outcome c id).bind fun r => clock r.1 r.2).or (last id)

/-- a scale-up or scale-down of the event comes a cooldown after the latest action on its VM, no revert is rejected because
of a cooldown, and only applied actions change the deadline of a record -/
structure CooldownLaw (clock : AttemptEnv → AppliedOutcome → Option Instant) (c : Controller E) (last : LastActions)
    (ev : Event) : Prop where
  separated : ∀ id env o, ev.outcome c id = some (env, o) → o.action.isOrdinary = true →
    ∀ x, clock env o = some x → ∀ y, last id = some y → y + fromSecs c.cfg.cooldownSecs ≤ x
  reverts : ∀ id env action, ev.outcome c id = some (env, .blocked action .cooldown) → action.isRevert = false
  kept : ∀ id i i', c.instances id = some i → (c.step ev).1.instances id = some i' →
    (∀ env o, ev.outcome c id = some (env, o) → o.isApplied = false) →
      i'.status.cooldownUntil = i.status.cooldownUntil

/-- the law at an event of a process -/
def ObeysCooldown (clock : AttemptEnv → AppliedOutcome → Option Instant) (x : Option (Controller E) × LastActions)
    (ev : Event) : Prop :=
  ∀ c, x.1 = some c → CooldownLaw clock c x.2 ev

/-- the clock readings of an event's attempts -/
def Event.readings : Event → List Instant
  | .tick env => env.order.flatMap fun id =>
      [(env.attempt id).checkedAt, (env.attempt id).cooldownAt, (env.attempt id).appliedAt]
  | .sync .. | .setThreadCount .. | .setAllThreadCounts .. | .query => []

/-- the readings of one attempt come in the order in which it takes them -/
def Event.InOrder : Event → Prop
  | .tick env => ∀ id, (env.attempt id).checkedAt ≤ (env.attempt id).cooldownAt ∧
      (env.attempt id).cooldownAt ≤ (env.attempt id).appliedAt
  | .sync .. | .setThreadCount .. | .setAllThreadCounts .. | .query => True

/-- the clock never goes back: not inside an attempt, and not from one event to a later one -/
def NonDecreasingClock (es : List Event) : Prop :=
  (∀ ev ∈ es, ev.InOrder) ∧ es.Pairwise fun ev ev' => ∀ t ∈ ev.readings, ∀ t' ∈ ev'.readings, t ≤ t'

/-! ## One event -/

namespace Controller

theorem tick_outcome_of {c : Controller E} (hk : c.Keyed) {env : TickEnv} {id : VmId} {o : AppliedOutcome}
    (h : c.tickOutcome env id = some o) :
    ∃ i action t, c.refreshedRecord env id = some i ∧
      o = (c.decidedTick env).1.attemptOutcome (env.attempt id) i action t := by
  obtain ⟨x, hx, rfl⟩ := attempt_of_tickOutcome h
  obtain ⟨i, t, hrec, -, -, hout⟩ := tickOutcome_of_attempt hk hx
  refine ⟨i, x.2.action, t, hrec, ?_⟩
  rw [h, Option.some.injEq] at hout
  rw [hout, wouldReport, refreshedRecord_id hk hrec]

/-- an applied outcome passed the guards, and its times are readings of its attempt -/
theorem attemptOutcome_armed {c : Controller E} {env : AttemptEnv} {i : Instance} {action : ScaleAction} {t : ℕ}
    {x : Instant} (h : armedAt env (c.attemptOutcome env i action t) = some x) :
    c.guard i.status action t env.checkedAt = none ∧ (x = env.appliedAt ∨ x = env.cooldownAt) := by
  unfold attemptOutcome at h
  cases hguard : c.guard i.status action t env.checkedAt with
  | some reason => rw [hguard] at h; simp [armedAt] at h
  | none =>
    rw [hguard] at h
    refine ⟨rfl, ?_⟩
    cases hdry : c.cfg.dryRun with
    | true =>
      rw [hdry] at h
      exact Or.inr (Option.some.inj h).symm
    | false =>
      rw [hdry] at h
      cases hb : env.backend with
      | ok u =>
        rw [hb] at h
        exact Or.inl (Option.some.inj h).symm
      | error e => rw [hb] at h; simp [armedAt] at h

/-- an attempt that a cooldown stops is a scale-up or a scale-down -/
theorem attemptOutcome_cooldown {c : Controller E} {env : AttemptEnv} {i : Instance} {action action' : ScaleAction} {t : ℕ}
    (h : c.attemptOutcome env i action t = .blocked action' .cooldown) : action'.isRevert = false := by
  obtain ⟨rfl, hguard⟩ := attemptOutcome_blocked h
  have hord : action'.isOrdinary = true := (guard_blocks hguard).1
  cases action' <;> simp [ScaleAction.isOrdinary, ScaleAction.isRevert] at hord ⊢

/-- the deadline that an outcome leaves -/
theorem outcomeStatus_cooldown (c : Controller E) {env : AttemptEnv} (status : InstanceStatus) {o : AppliedOutcome}
    (h : ∀ x, reportedAt env o = some x → x = env.appliedAt) :
    (c.outcomeStatus env status (some o)).cooldownUntil =
      match armedAt env o with
      | some x => some (x + fromSecs c.cfg.cooldownSecs)
      | none => status.cooldownUntil := by
  cases o with
  | success action n io x =>
    obtain rfl : x = env.appliedAt := h x rfl
    rfl
  | dryRun action n io x => rfl
  | blocked action reason => rfl
  | failed action error => rfl

theorem attemptOutcome_reported {c : Controller E} {env : AttemptEnv} {i : Instance} {action : ScaleAction} {t : ℕ}
    {x : Instant} (h : reportedAt env (c.attemptOutcome env i action t) = some x) : x = env.appliedAt := by
  unfold attemptOutcome at h
  cases hguard : c.guard i.status action t env.checkedAt with
  | some reason => rw [hguard] at h; simp [reportedAt] at h
  | none =>
    rw [hguard] at h
    dsimp only at h
    split_ifs at h
    · exact (Option.some.inj h).symm
    · cases hb : env.backend with
      | ok u =>
        rw [hb] at h
        exact (Option.some.inj h).symm
      | error e => rw [hb] at h; simp [reportedAt] at h

end Controller

open Controller

theorem armedAt_isSome (env : AttemptEnv) (o : AppliedOutcome) : (armedAt env o).isSome = o.isApplied := by
  cases o <;> rfl

/-- the deadline of a VM that stays tracked, after an event -/
theorem step_cooldown {c : Controller E} (hk : c.Keyed) {ev : Event} {id : VmId} {i i' : Instance}
    (hi : c.instances id = some i) (hi' : (c.step ev).1.instances id = some i') :
    i'.status.cooldownUntil =
      match (ev.outcome c id).bind fun r => armedAt r.1 r.2 with
      | some x => some (x + fromSecs c.cfg.cooldownSecs)
      | none => i.status.cooldownUntil := by
  cases ev using Event.requestCases with
  | tick env =>
    have htick : (c.tick env).1.instances id = some i' := hi'
    rcases c.tick_instances env id with ⟨-, hn⟩ | ⟨k, -, -, hrec, -⟩
    · rw [hn] at htick
      simp at htick
    obtain ⟨j, snapshot, hj, -, hk'⟩ := refreshedRecord_some hrec
    obtain rfl : j = i := Option.some.inj (hj.symm.trans hi)
    have hkept : k.status.cooldownUntil = j.status.cooldownUntil := by
      rw [hk']
      exact applyThreadPoolSnapshot_cooldown _ _ _ _
    rw [tick_record hk hrec, Option.some.injEq] at htick
    rw [← htick]
    have houtcome : (Event.tick env).outcome c id = (c.tickOutcome env id).map fun o => (env.attempt id, o) := rfl
    rw [houtcome]
    cases hout : c.tickOutcome env id with
    | none => exact hkept
    | some o =>
      obtain ⟨k', action, t, -, rfl⟩ := tick_outcome_of hk hout
      refine (c.outcomeStatus_cooldown k.status fun x hx => attemptOutcome_reported hx).trans ?_
      rw [hkept]
      rfl
  | sync ds order =>
    rcases syncInstances_some hi' with hold | ⟨hnone, -⟩
    · obtain rfl : i' = i := Option.some.inj (hold.symm.trans hi)
      rfl
    · rw [hnone] at hi
      simp at hi
  | request ev hreq =>
    rw [Event.outcome_request hreq]
    rcases c.request_record hreq id with ⟨-, hs⟩ | ⟨j, n, sticky, -, hj, hs⟩
    · obtain rfl : i' = i := Option.some.inj (hi'.symm.trans (hs.trans hi))
      rfl
    · obtain rfl : j = i := Option.some.inj (hj.symm.trans hi)
      obtain rfl : i' = resized j n sticky := Option.some.inj (hi'.symm.trans hs)
      rfl

theorem step_cfg (c : Controller E) (ev : Event) : (c.step ev).1.cfg = c.cfg := by
  cases ev with
  | tick env => exact c.tick_cfg env
  | sync ds order => exact (c.syncInstances_frame ds order).1
  | setThreadCount vm threads sticky backend =>
    rcases c.handleSetThreadCount_spec vm threads sticky backend with ⟨h, -⟩ | ⟨i, -, -, -, -, h, -⟩
    · exact congrArg Controller.cfg h
    · exact (congrArg Controller.cfg h).trans rfl
  | setAllThreadCounts threads sticky backend order =>
    apply handleSetAllThreadCounts_preserves (fun c' => c'.cfg = c.cfg) threads sticky backend _ order rfl
    intro c' vm hc'
    rcases c'.handleSetThreadCount_spec vm threads sticky (backend vm) with ⟨h, -⟩ | ⟨i, -, -, -, -, h, -⟩
    · exact (congrArg Controller.cfg h).trans hc'
    · exact (congrArg Controller.cfg h).trans hc'
  | query => rfl

/-! ## Runs -/

/-- the deadline of a VM is its latest action plus the cooldown -/
def Armed (x : Option (Controller E) × LastActions) : Prop :=
  ∀ c, x.1 = some c → c.Keyed ∧ ∀ id y, x.2 id = some y →
    ∃ i, c.instances id = some i ∧ i.status.cooldownUntil = some (y + fromSecs c.cfg.cooldownSecs)

theorem step_armed {x : Option (Controller E) × LastActions} (h : Armed x) (ev : Event) :
    Armed (Core.withHistory procStep (noteActions armedAt) x ev) := by
  obtain ⟨process, last⟩ := x
  intro c' hc'
  rcases process with _ | c
  · cases hc'
  obtain ⟨-, rfl⟩ := procStep_eq_some.1 hc'
  obtain ⟨hk, harmed⟩ := h c rfl
  refine ⟨step_keyed hk ev, ?_⟩
  intro id y hy
  change (if ((c.step ev).1.instances id).isNone then none else _) = some y at hy
  cases hi' : (c.step ev).1.instances id with
  | none => rw [hi'] at hy; simp at hy
  | some i' =>
    rw [hi'] at hy
    simp only [Option.isNone_some, Bool.false_eq_true, if_false] at hy
    refine ⟨i', rfl, ?_⟩
    rw [step_cfg]
    cases hi : c.instances id with
    | none =>
      -- a VM that was not tracked has neither an action before the event nor one in it
      have hlast : last id = none := by
        cases hlast : last id with
        | none => rfl
        | some z =>
          obtain ⟨i, hsome, -⟩ := harmed id z hlast
          rw [hi] at hsome
          simp at hsome
      have hout : ev.outcome c id = none := by
        rw [Option.eq_none_iff_forall_ne_some]
        intro r hr
        obtain ⟨env, -, ho, -⟩ := Event.outcome_some hr
        obtain ⟨k, -, -, hrec, -⟩ := tick_outcome_of hk ho
        obtain ⟨j, -, hj, -, -⟩ := refreshedRecord_some hrec
        rw [hi] at hj
        simp at hj
      rw [hlast, hout] at hy
      simp at hy
    | some i =>
      rw [step_cooldown hk hi hi']
      cases hx : (ev.outcome c id).bind fun r => armedAt r.1 r.2 with
      | some x =>
        rw [hx] at hy
        obtain rfl : x = y := Option.some.inj hy
        rfl
      | none =>
        rw [hx] at hy
        obtain ⟨j, hj, hdeadline⟩ := harmed id y hy
        obtain rfl : j = i := Option.some.inj (hj.symm.trans hi)
        exact hdeadline

theorem armed_law {x : Option (Controller E) × LastActions} (h : Armed x) {ev : Event} (hclock : ev.InOrder) :
    ObeysCooldown armedAt x ev := by
  intro c hc
  obtain ⟨hk, harmed⟩ := h c hc
  refine ⟨?_, ?_, ?_⟩
  · intro id env o hout hord t ht y hy
    obtain ⟨tickEnv, rfl, hout', rfl⟩ := Event.outcome_some hout
    obtain ⟨i', action, target, hrec, rfl⟩ := tick_outcome_of hk hout'
    obtain ⟨j, snapshot, hj, -, rfl⟩ := refreshedRecord_some hrec
    obtain ⟨i, hi, hdeadline⟩ := harmed id y hy
    obtain rfl : j = i := Option.some.inj (hj.symm.trans hi)
    obtain ⟨hguard, htime⟩ := attemptOutcome_armed ht
    obtain ⟨-, -, -, -, -, hcool, -⟩ := (guard_eq_none _ _ _ _ _).1 hguard
    rw [attemptOutcome_action] at hord
    obtain ⟨hcheck, happly⟩ := hclock id
    calc y + fromSecs c.cfg.cooldownSecs ≤ (tickEnv.attempt id).checkedAt :=
          hcool hord _ ((applyThreadPoolSnapshot_cooldown _ _ _ _).trans hdeadline)
      _ ≤ t := by
          rcases htime with rfl | rfl
          · exact hcheck.trans happly
          · exact hcheck
  · intro id env action hout
    obtain ⟨tickEnv, rfl, hout', rfl⟩ := Event.outcome_some hout
    obtain ⟨i, action', target, -, hblocked⟩ := tick_outcome_of hk hout'
    exact attemptOutcome_cooldown hblocked.symm
  · intro id i i' hi hi' hidle
    rw [step_cooldown hk hi hi']
    cases hout : ev.outcome c id with
    | none => rfl
    | some r =>
      obtain ⟨env, o⟩ := r
      have hnone : armedAt env o = none := by
        rw [← Option.not_isSome_iff_eq_none, armedAt_isSome, hidle env o hout]
        simp
      rw [Option.bind_some, hnone]

/-- in every run of every engine, automatic actions on a VM are a cooldown apart, reverts pass every cooldown, and nothing
but an applied action changes a deadline -/
theorem cooldown_separates (cfg : Config) (engine : E.State) (o : VmOwnership) {es : List Event}
    (hclock : NonDecreasingClock es) :
    Core.Along (Core.withHistory procStep (noteActions armedAt)) (ObeysCooldown armedAt)
      (some (Controller.new cfg engine o : Controller E), fun _ => none) es := by
  apply Core.along_of_inv Armed _ _ _ (Core.along_of_forall _ _ hclock.1)
  · intro x ev hx _
    exact step_armed hx ev
  · intro x ev hx hev
    exact armed_law hx hev
  · intro c hc
    obtain rfl := Option.some.inj hc
    refine ⟨new_keyed cfg engine o, ?_⟩
    intro id y hy
    cases hy

/-- a scale-up, one that the cooldown blocks, and one after the cooldown -/
theorem cooldown_separates_run :
    let E := ScalingEngine.stateless fun i => .up (i.status.threadCount + 1)
    let idle (count : ℕ) : ThreadPoolSnapshot := { threadCount := count, vcpuCount := 8, perThreadUtil := some 0 }
    Core.Along (Core.withHistory procStep (noteActions armedAt)) (ObeysCooldown armedAt)
      (some (Controller.new {} () { managedVms := {"vm"} } : Controller E), fun _ => none)
      [.sync [⟨"vm", 1⟩] ["vm"], .tick (.single "vm" (fromSecs 10) (fromSecs 10) (.ok (idle 2))),
        .tick (.single "vm" (fromSecs 20) (fromSecs 20) (.ok (idle 3))),
        .tick (.single "vm" (fromSecs 40) (fromSecs 40) (.ok (idle 3)))] := by
  refine cooldown_separates _ _ _ ⟨?_, by decide +kernel⟩
  simp [Event.InOrder, TickEnv.single]

/-- a dry run reports a time after the reading that arms its cooldown, and the next scale-up uses the difference -/
theorem dry_run_early : ¬ ∀ (E : ScalingEngine) (cfg : Config) (engine : E.State) (o : VmOwnership) (es : List Event),
    NonDecreasingClock es → Core.Along (Core.withHistory procStep (noteActions reportedAt)) (ObeysCooldown reportedAt)
      (some (Controller.new cfg engine o : Controller E), fun _ => none) es := by
  intro hevery
  let E := ScalingEngine.stateless fun i => .up (i.status.threadCount + 1)
  let idle : ThreadPoolSnapshot := { threadCount := 2, vcpuCount := 8, perThreadUtil := some 0 }
  let first : TickEnv := { TickEnv.single "vm" 0 0 (.ok idle) with attempt := fun _ => { checkedAt := 0, appliedAt := 1 } }
  let second : TickEnv := .single "vm" (fromSecs 30) (fromSecs 30) (.ok idle)
  let start : Option (Controller E) × LastActions :=
    (some (Controller.new { dryRun := true } () { managedVms := {"vm"} }), fun _ => none)
  let state := Core.run (Core.withHistory procStep (noteActions reportedAt)) start
    [.sync [⟨"vm", 1⟩] ["vm"], .tick first]
  have hrun := hevery E { dryRun := true } () { managedVms := {"vm"} } [.sync [⟨"vm", 1⟩] ["vm"], .tick first, .tick second]
    ⟨by simp [Event.InOrder, TickEnv.single, first, second], by decide +kernel⟩
  have hlaw : ObeysCooldown reportedAt state (.tick second) := hrun.2.2.1
  have hlast : state.2 "vm" = some 1 := by decide +kernel
  have hout : (state.1.bind fun c => c.tickOutcome second "vm") = some (.dryRun (.up 3) 2 0 (fromSecs 30)) := by
    decide +kernel
  have hcooldown : state.1.map (fun c => c.cfg.cooldownSecs) = some 30 := by decide +kernel
  obtain ⟨c, hc, hout⟩ := Option.bind_eq_some_iff.1 hout
  rw [hc, Option.map_some, Option.some.injEq] at hcooldown
  have hevent : (Event.tick second).outcome c "vm" =
      some (second.attempt "vm", .dryRun (.up 3) 2 0 (fromSecs 30)) := by
    change (c.tickOutcome second "vm").map _ = _
    rw [hout]
    rfl
  have hlate := (hlaw c hc).separated "vm" _ _ hevent rfl (fromSecs 30) rfl 1 hlast
  rw [hcooldown] at hlate
  simp at hlate

end IoThreadController
