/-
Validations and the pools that they judge.

Automatic actions and manual requests write the same pool. The history variable `noteTouched` remembers the VMs whose
pool a manual request changed while a validation was pending.

- `OwnPool`: the invariant. A pending validation belongs to the recorded pool: the target of its action is the recorded
  count, beyond the count to restore, and no request has touched it.
- `PoolKept`: while a validation is pending, requests and refreshes keep the recorded count; a dry run starts none.
- `reverts_own_pool`: in a run of such events every revert judges the pool that its action created.
- `verdict_ignores_pool`: a verdict does not look at the pool, so every other failed validation is reverted as well.
- `manual_count_reverted`: a manual count inside a validation window is overwritten.
-/
import IoThreadController.Fleet.Requests
import IoThreadController.Threshold.Baseline

namespace IoThreadController

variable {T : ThresholdEngine}

/-! ## Touched pools -/

/-- the VMs whose pool a manual request changed inside the running validation window -/
abbrev Touched := VmId → Bool

def noteTouched : Option (Controller (thresholdEngine T)) → Event → Touched → Touched
  | none, _, touched => touched
  -- a window that starts in this tick starts untouched
  | some c, .tick _, touched => fun id => touched id && (c.stateOf id).pendingValidation.isSome
  | some c, ev, touched => fun id =>
    match ev.manualCount c id, c.instances id with
    | some n, some i => touched id || (c.stateOf id).pendingValidation.isSome && decide (n ≠ i.status.threadCount)
    | _, _ => touched id

/-- the revert to `b` judges the pool that its action created: an untouched pool of the action's target, which the revert
of a scale-up shrinks and the revert of a scale-down grows -/
def JudgesOwnPool (touched : Bool) (pending : PendingValidation) (n b : ℕ) : Prop :=
  pending.action.target = some n ∧ touched = false ∧ (pending.action.isUp = true → b < n) ∧
    (pending.action.isUp = false → n < b)

instance (touched : Bool) (pending : PendingValidation) (n b : ℕ) : Decidable (JudgesOwnPool touched pending n b) := by
  unfold JudgesOwnPool; infer_instance

/-- the target of a revert -/
def ScaleAction.revertTarget : ScaleAction → Option ℕ
  | .revert b => some b
  | .none | .up _ | .down _ => Option.none

/-- every revert of the event's evaluations judges its own pool -/
def OwnReverts : Option (Controller (thresholdEngine T)) × Touched → Event → Prop
  | (some c, touched), .tick env => ∀ id ∈ env.order, ∀ i ∈ c.refreshedRecord env id, ∀ r ∈ c.evaluation env id,
    ∀ b ∈ r.2.revertTarget, ∃ pending ∈ (c.stateOf id).pendingValidation,
      JudgesOwnPool (touched id) pending i.status.threadCount b
  | _, _ => True

/-! ## Events that keep the pool -/

/-- the VMs that a request is for -/
def Event.addressees : Event → List VmId
  | .setThreadCount vm _ _ _ => [vm]
  | .setAllThreadCounts _ _ _ order => order
  | .tick _ | .sync .. | .query => []

theorem Event.mem_addressees {E : ScalingEngine} {c : Controller E} {ev : Event} {id : VmId} {n : ℕ}
    (h : ev.manualCount c id = some n) : id ∈ ev.addressees := by
  cases ev with
  | tick env => cases h
  | sync ds order => cases h
  | query => cases h
  | setThreadCount vm threads sticky backend =>
    simp only [manualCount] at h
    split_ifs at h with hc
    simp [addressees, hc.1]
  | setAllThreadCounts threads sticky backend order =>
    simp only [manualCount] at h
    split_ifs at h with hc
    exact hc.1

/-- while a validation is pending, the refresh of a tick reports the recorded count and an accepted request sets it
again; an evaluation in a dry run proposes nothing that would be validated if it were applied -/
def PoolKept : Option (Controller (thresholdEngine T)) × Touched → Event → Prop
  | (some c, _), .tick env => ∀ id ∈ env.order, ∀ i ∈ c.instances id, ∀ i' ∈ c.refreshedRecord env id,
    ((c.stateOf id).pendingValidation.isSome = true → i'.status.threadCount = i.status.threadCount) ∧
      (c.cfg.dryRun = true → i'.skipped = false →
        ¬ T.StartsValidation (c.stateOf id) ⟨i'.status, c.contextOf env, some env.now⟩)
  | (some c, _), ev => ∀ id ∈ ev.addressees, ∀ n ∈ ev.manualCount c id, ∀ i ∈ c.instances id,
    (c.stateOf id).pendingValidation.isSome = true → n = i.status.threadCount
  | _, _ => True

instance : ∀ (x : Option (Controller (thresholdEngine T)) × Touched) (ev : Event), Decidable (OwnReverts x ev)
  | (some _, _), .tick _ => by unfold OwnReverts; infer_instance
  | (some _, _), .sync .. | (some _, _), .setThreadCount .. | (some _, _), .setAllThreadCounts .. | (some _, _), .query
  | (none, _), _ => isTrue trivial

instance : ∀ (x : Option (Controller (thresholdEngine T)) × Touched) (ev : Event), Decidable (PoolKept x ev)
  | (some _, _), .tick _ | (some _, _), .sync .. | (some _, _), .setThreadCount .. | (some _, _), .setAllThreadCounts ..
  | (some _, _), .query => by unfold PoolKept; infer_instance
  | (none, _), _ => isTrue trivial

/-! ## The invariant -/

/-- the validation belongs to the pool of record `i` -/
structure Belongs (i : Instance) (pending : PendingValidation) : Prop where
  target : pending.action.target = some i.status.threadCount
  up : pending.action.isUp = true → pending.baselineThreadCount < i.status.threadCount
  down : pending.action.isUp = false → i.status.threadCount < pending.baselineThreadCount

theorem Belongs.congr {i i' : Instance} {pending q : PendingValidation} (h : Belongs i q)
    (hn : i'.status.threadCount = i.status.threadCount) (ha : pending.action = q.action)
    (hb : pending.baselineThreadCount = q.baselineThreadCount) : Belongs i' pending := by
  refine ⟨?_, ?_, ?_⟩
  · rw [ha, hn]
    exact h.target
  · rw [ha, hb, hn]
    exact h.up
  · rw [ha, hb, hn]
    exact h.down

/-- every pending validation belongs to an untouched pool -/
def OwnPool (x : Option (Controller (thresholdEngine T)) × Touched) : Prop :=
  ∀ c, x.1 = some c → c.Sourced ∧ c.Keyed ∧ ∀ id pending, (c.stateOf id).pendingValidation = some pending →
    x.2 id = false ∧ ∃ i, c.instances id = some i ∧ Belongs i pending

/-- a validation that starts belongs to the pool that its applied action leaves -/
theorem belongs_of_started {s : InstanceState} {p : Poll} {pending : PendingValidation} (h : s.pendingValidation = none)
    (hnew : (T.driveStep s p).pendingValidation = some pending) {i : Instance}
    (hcount : (T.decision s p).target = some i.status.threadCount) : Belongs i pending := by
  obtain ⟨hstarts, haction, hbase, -⟩ := ThresholdEngine.pending_started h hnew
  rcases hd : T.decision s p with _ | t | t | t
  · rw [hd] at hcount
    cases hcount
  · rw [hd] at hcount haction
    obtain rfl : t = i.status.threadCount := Option.some.inj hcount
    have hup := (ThresholdEngine.evaluate_up.1 hd).2
    refine ⟨by rw [haction]; rfl, ?_, ?_⟩
    · intro _
      omega
    · intro hfalse
      rw [haction] at hfalse
      cases hfalse
  · rw [hd] at hcount haction
    obtain rfl : t = i.status.threadCount := Option.some.inj hcount
    obtain ⟨hdown, htarget⟩ := ThresholdEngine.evaluate_down.1 hd
    have hless := hdown.2.2.1
    refine ⟨by rw [haction]; rfl, ?_, ?_⟩
    · intro htrue
      rw [haction] at htrue
      cases htrue
    · intro _
      omega
  · have hnone := ThresholdEngine.evaluate_revert.1 hd
    obtain ⟨q, hdue, -⟩ := hnone
    rw [hdue.1] at h
    simp at h

/-- a pending validation after a poll was pending before it and counts down, or it starts in the poll -/
theorem pending_before {s : InstanceState} {p : Poll} {pending : PendingValidation}
    (h : (T.driveStep s p).pendingValidation = some pending) :
    (∃ q, s.pendingValidation = some q ∧ 0 < q.pollsRemaining ∧ pending.action = q.action ∧
      pending.baselineThreadCount = q.baselineThreadCount) ∨ s.pendingValidation = none := by
  rcases ThresholdEngine.driveStep_cases T s p with
    ⟨q, hq, hpos, he⟩ | ⟨q, hd, he⟩ | ⟨hn, -⟩ | ⟨at', hn, -⟩ | ⟨at', hn, -⟩
  · rw [he] at h
    obtain rfl := Option.some.inj h
    exact Or.inl ⟨q, hq, hpos, rfl, rfl⟩
  · rw [he, ThresholdEngine.settle_pending] at h
    simp at h
  · exact Or.inr hn
  · exact Or.inr hn
  · exact Or.inr hn

section Tick

variable {c : Controller (thresholdEngine T)} {env : TickEnv} {id : VmId}

/-- an applied outcome outside dry run sets the recorded count to the target of the decision -/
theorem threadCount_of_applied (hk : c.Keyed) (ho : Enumerates env.order c.instances)
    {r : InstanceState × ScaleAction} (hr : c.evaluation env id = some r) {i : Instance}
    (hrec : c.refreshedRecord env id = some i) (hdry : c.cfg.dryRun = false)
    (happ : ∃ o, c.tickOutcome env id = some o ∧ o.isApplied = true) :
    ∃ i', (c.tick env).1.instances id = some i' ∧ r.2.target = some i'.status.threadCount := by
  obtain ⟨o, hout, happlied⟩ := happ
  obtain ⟨j, r', t, hj, hr', ht, -, rfl⟩ := Controller.tickOutcome_some hk ho hout
  obtain rfl : j = i := Option.some.inj (hj.symm.trans hrec)
  obtain rfl : r' = r := Option.some.inj (hr'.symm.trans hr)
  obtain ⟨i', hi', hcount⟩ := Controller.tick_threadCount hk hrec
  refine ⟨i', hi', ?_⟩
  rw [hout] at hcount
  rcases (c.decidedTick env).1.attemptOutcome_eq (env.attempt j.id) j r'.2 t with ⟨at', he, -⟩ | ⟨at', -, hd⟩ | hf
  · have hsuccess : c.wouldReport env j r'.2 t = _ := he
    rw [hsuccess] at hcount
    simp only [ht, Option.getD_some] at hcount
    rw [ht, hcount]
  · rw [Controller.decidedTick_cfg, hdry] at hd
    simp at hd
  · have hrefused : (c.wouldReport env j r'.2 t).isApplied = false := hf
    rw [hrefused] at happlied
    simp at happlied

/-- without a decision to resize, the refreshed count is recorded -/
theorem threadCount_of_idle (hk : c.Keyed) (ho : Enumerates env.order c.instances) {i : Instance}
    (hrec : c.refreshedRecord env id = some i) (hidle : ∀ r, c.evaluation env id = some r → r.2.target = none) :
    ∃ i', (c.tick env).1.instances id = some i' ∧ i'.status.threadCount = i.status.threadCount := by
  obtain ⟨i', hi', hcount⟩ := Controller.tick_threadCount hk hrec
  refine ⟨i', hi', ?_⟩
  rcases hout : c.tickOutcome env id with _ | o
  · rw [hout] at hcount
    exact hcount
  · obtain ⟨j, r, t, -, hr, ht, -⟩ := Controller.tickOutcome_some hk ho hout
    rw [hidle r hr] at ht
    simp at ht

theorem tick_ownPool {touched : Touched} (h : OwnPool (some c, touched)) (ho : Enumerates env.order c.instances)
    (hok : (c.tick env).2.2 = .ok ()) (hkept : PoolKept (some c, touched) (.tick env)) {pending : PendingValidation}
    (hp : ((c.tick env).1.stateOf id).pendingValidation = some pending) :
    (touched id && (c.stateOf id).pendingValidation.isSome) = false ∧
      ∃ i, (c.tick env).1.instances id = some i ∧ Belongs i pending := by
  obtain ⟨hs, hk, hown⟩ := h c rfl
  -- a pending validation of a VM that is refreshed without a resize
  have hstays : ∀ q i', (c.stateOf id).pendingValidation = some q → c.refreshedRecord env id = some i' →
      (∀ r, c.evaluation env id = some r → r.2.target = none) → pending.action = q.action →
      pending.baselineThreadCount = q.baselineThreadCount →
      (touched id && (c.stateOf id).pendingValidation.isSome) = false ∧
        ∃ i, (c.tick env).1.instances id = some i ∧ Belongs i pending := by
    intro q i' hq hrec hidle ha hb
    obtain ⟨htouched, i, hi, hbelongs⟩ := hown id q hq
    have htouched : touched id = false := htouched
    have hmem := Controller.refreshedRecord_mem ho hrec
    have hsame := (hkept id hmem i hi i' hrec).1 (by rw [hq]; rfl)
    obtain ⟨i'', hi'', hcount⟩ := threadCount_of_idle hk ho hrec hidle
    exact ⟨by rw [htouched]; rfl, i'', hi'', hbelongs.congr (hcount.trans hsame) ha hb⟩
  rcases hr : c.evaluation env id with _ | r
  · have hst := Controller.tick_state_skipped hk ho hok hr
    split_ifs at hst with hgone
    · rw [Controller.stateOf_none hst] at hp
      cases hp
    · have hq : (c.stateOf id).pendingValidation = some pending := by
        rw [Controller.stateOf_congr hst] at hp
        exact hp
      obtain ⟨-, i, hi, -⟩ := hown id pending hq
      rcases hrec : c.refreshedRecord env id with _ | i'
      · exact absurd ⟨by rw [hi]; rfl, hrec⟩ hgone
      · refine hstays pending i' hq hrec ?_ rfl rfl
        intro r hr'
        rw [hr] at hr'
        simp at hr'
  · obtain ⟨i', hrec, hskip, hre⟩ := Controller.evaluation_some hr
    obtain ⟨appliedAt, hst, happ⟩ := Controller.tick_drives hk ho hok hr hrec
    have hdrive : (T.driveStep (c.stateOf id) ⟨i'.status, c.contextOf env, appliedAt⟩).pendingValidation =
        some pending := by
      rw [Controller.stateOf_some hst] at hp
      exact hp
    rcases pending_before hdrive with ⟨q, hq, hpos, ha, hb⟩ | hnone
    · refine hstays q i' hq hrec ?_ ha hb
      intro r' hr'
      obtain rfl : r' = r := Option.some.inj (hr'.symm.trans hr)
      rw [hre, ThresholdEngine.evaluate_waiting hq hpos]
      rfl
    · obtain ⟨hstarts, -⟩ := ThresholdEngine.pending_started hnone hdrive
      obtain ⟨k, s, hki, -, -⟩ := Controller.refreshedRecord_some hrec
      have hmem := Controller.refreshedRecord_mem ho hrec
      have hdry : c.cfg.dryRun = false := by
        by_contra hdry
        exact (hkept id hmem k hki i' hrec).2 (by simpa using hdry) hskip ⟨rfl, hstarts.2⟩
      obtain ⟨i'', hi'', htarget⟩ := threadCount_of_applied hk ho hr hrec hdry (happ.1 hstarts.1)
      refine ⟨by rw [hnone]; simp, i'', hi'', belongs_of_started hnone hdrive ?_⟩
      rw [hre] at htarget
      exact htarget

end Tick

/-- a request that keeps the count of a pool under validation leaves the pool to its validation -/
theorem request_ownPool {c : Controller (thresholdEngine T)} {touched : Touched} (h : OwnPool (some c, touched))
    {ev : Event} (hreq : ev.isRequest = true)
    (hkept : ∀ id ∈ ev.addressees, ∀ n ∈ ev.manualCount c id, ∀ i ∈ c.instances id,
      (c.stateOf id).pendingValidation.isSome = true → n = i.status.threadCount)
    {id : VmId} {pending : PendingValidation} (hp : ((c.step ev).1.stateOf id).pendingValidation = some pending) :
    (match ev.manualCount c id, c.instances id with
      | some n, some i => touched id || (c.stateOf id).pendingValidation.isSome && decide (n ≠ i.status.threadCount)
      | _, _ => touched id) = false ∧ ∃ i, (c.step ev).1.instances id = some i ∧ Belongs i pending := by
  have hp : (c.stateOf id).pendingValidation = some pending := by
    rw [Controller.stateOf_congr (Controller.request_state hreq id)] at hp
    exact hp
  obtain ⟨htouched, i, hi, hbelongs⟩ := (h c rfl).2.2 id pending hp
  have htouched : touched id = false := htouched
  rcases c.request_record hreq id with ⟨hm, hs⟩ | ⟨j, n, sticky, hm, hj, hs⟩
  · rw [hm]
    exact ⟨htouched, i, hs.trans hi, hbelongs⟩
  · obtain rfl : j = i := Option.some.inj (hj.symm.trans hi)
    have hn := hkept id (Event.mem_addressees hm) n hm j hi (by rw [hp]; rfl)
    refine ⟨?_, _, hs, hbelongs.congr hn rfl rfl⟩
    rw [hm, hi]
    simp [htouched, hn]

theorem step_ownPool {x : Option (Controller (thresholdEngine T)) × Touched} {ev : Event} (h : OwnPool x)
    (ho : Controller.OrderedProc x.1 ev) (hkept : PoolKept x ev) :
    OwnPool (Core.withHistory procStep noteTouched x ev) := by
  obtain ⟨process, touched⟩ := x
  rcases process with _ | c
  · intro c hc
    cases hc
  obtain ⟨hs, hk, hown⟩ := h c rfl
  intro c' hc'
  obtain ⟨hok, rfl⟩ := procStep_eq_some.1 hc'
  refine ⟨Controller.step_sourced hs hk (ho c rfl) hok, Controller.step_keyed hk ev, ?_⟩
  intro id pending hp
  cases ev with
  | tick env => exact tick_ownPool h (ho c rfl) hok hkept hp
  | sync ds order =>
    -- a state with a pending validation is an old one, and its record stays
    have hq : (c.stateOf id).pendingValidation = some pending := by
      rcases Controller.step_spares hs hk (ho c rfl) hok (c.sync_spares ds order id) with hst | hst
      · rw [hst] at hp
        exact hp
      · rw [hst] at hp
        cases hp
    obtain ⟨htouched, i, hi, hbelongs⟩ := hown id pending hq
    have htracked : (c.syncInstances ds order).1.instances id ≠ none := by
      intro hnone
      have hp : ((c.syncInstances ds order).1.stateOf id).pendingValidation = some pending := hp
      rw [Controller.stateOf_none (Controller.sync_sourced hs ds order id hnone)] at hp
      cases hp
    obtain ⟨i', hi'⟩ := Option.ne_none_iff_exists'.1 htracked
    rcases Controller.syncInstances_some hi' with hold | ⟨hnone, -⟩
    · obtain rfl : i' = i := Option.some.inj (hold.symm.trans hi)
      refine ⟨?_, i', hi', hbelongs⟩
      exact htouched
    · rw [hnone] at hi
      simp at hi
  | setThreadCount vm threads sticky backend => exact request_ownPool h rfl hkept hp
  | setAllThreadCounts threads sticky backend order => exact request_ownPool h rfl hkept hp
  | query => exact hown id pending hp

/-- under the invariant a refresh that reports the recorded count lets a verdict judge its own pool only -/
theorem ownReverts_of_ownPool {x : Option (Controller (thresholdEngine T)) × Touched} {ev : Event} (h : OwnPool x)
    (hkept : PoolKept x ev) : OwnReverts x ev := by
  obtain ⟨process, touched⟩ := x
  rcases process with _ | c
  · trivial
  cases ev with
  | tick env =>
    intro id hmem i hrec r hr b hb
    obtain ⟨j, hj, -, hre⟩ := Controller.evaluation_some hr
    obtain rfl : j = i := Option.some.inj (hj.symm.trans hrec)
    have hrevert : r.2 = .revert b := by
      rcases hact : r.2 with _ | t | t | t
      · rw [hact] at hb; cases hb
      · rw [hact] at hb; cases hb
      · rw [hact] at hb; cases hb
      · rw [hact] at hb
        rw [Option.some.inj hb]
    rw [hre] at hrevert
    obtain ⟨pending, ⟨hp, -⟩, htarget⟩ := ThresholdEngine.evaluate_revert.1 hrevert
    obtain ⟨htouched, i, hi, hbelongs⟩ := (h c rfl).2.2 id pending hp
    have hsame := (hkept id hmem i hi j hrec).1 (by rw [hp]; rfl)
    obtain ⟨rfl, -⟩ := ThresholdEngine.revertTarget_some htarget
    refine ⟨pending, hp, ?_⟩
    rw [hsame]
    exact ⟨hbelongs.target, htouched, hbelongs.up, hbelongs.down⟩
  | sync ds order => trivial
  | setThreadCount vm threads sticky backend => trivial
  | setAllThreadCounts threads sticky backend order => trivial
  | query => trivial

/-- in every run in which nothing but the engine changes a pool under validation, every revert judges the pool that its
action created: it has the size of the action's target, no request has touched it, and the revert goes back -/
theorem reverts_own_pool (T : ThresholdEngine) (cfg : Config) (o : VmOwnership) (es : List Event)
    (ho : Core.Along procStep Controller.OrderedProc
      (some (Controller.new cfg (fun _ => none) o : Controller (thresholdEngine T))) es)
    (hkept : Core.Along (Core.withHistory procStep noteTouched) PoolKept
      (some (Controller.new cfg (fun _ => none) o : Controller (thresholdEngine T)), fun _ => false) es) :
    Core.Along (Core.withHistory procStep noteTouched) OwnReverts
      (some (Controller.new cfg (fun _ => none) o : Controller (thresholdEngine T)), fun _ => false) es := by
  refine Core.along_of_inv OwnPool (fun x ev hx hc => step_ownPool hx hc.1 hc.2)
    (fun x ev hx hc => ownReverts_of_ownPool hx hc.2) ?_ ((Core.along_withHistory noteTouched ho).and hkept)
  intro c hc
  obtain rfl := Option.some.inj hc
  refine ⟨Controller.new_sourced cfg o, Controller.new_keyed cfg _ o, ?_⟩
  intro id pending hp
  cases hp

/-- a scale-up to three threads, a manual request for `n` threads inside its validation window, and a verdict on a load
that has not grown -/
def requestInWindow (n : ℕ) : List Event :=
  let snapshot (threads : ℕ) (util : ℚ) (io : ℕ) : Except BackendClientError ThreadPoolSnapshot :=
    .ok { threadCount := threads, vcpuCount := 8, perf := some { readIoCount := io }, perThreadUtil := some util }
  [.tick (.single "vm" 0 0 (snapshot 3 (1 / 2) 0)),
    .tick (.single "vm" (fromSecs 10) (fromSecs 10) (snapshot 3 1 1000)),
    .tick (.single "vm" (fromSecs 20) (fromSecs 20) (snapshot 4 1 2000)),
    .setThreadCount "vm" n false (.ok ()),
    .tick (.single "vm" (fromSecs 30) (fromSecs 30) (snapshot n 1 3000)),
    .tick (.single "vm" (fromSecs 40) (fromSecs 40) (snapshot n 1 4000))]

theorem requestInWindow_keepsFleet (n : ℕ) : ∀ ev ∈ requestInWindow n, ev.KeepsFleet ["vm"] := by
  simp [requestInWindow, Event.KeepsFleet, TickEnv.single, Except.isOk, Except.toBool]

/-- a request for the count that the pool has leaves the validation to its pool -/
theorem reverts_own_pool_same_count :
    Core.Along (Core.withHistory procStep noteTouched) OwnReverts
      (some (Controller.new {} (fun _ => none) {} : Controller (thresholdEngine .standard)), fun _ => false)
      (.sync [⟨"vm", 1⟩] ["vm"] :: requestInWindow 4) :=
  reverts_own_pool .standard {} {} _
    (Controller.ordered_of_discovery {} _ {} (by decide) (requestInWindow_keepsFleet _)) (by decide +kernel)

/-- an operator shrinks the pool to two threads inside the window of a scale-up from three to four; the revert of the
scale-up grows it to three -/
theorem manual_count_reverted :
    let start : Option (Controller (thresholdEngine .standard)) × Touched :=
      (some (Controller.new {} (fun _ => none) {}), fun _ => false)
    let es := Event.sync [⟨"vm", 1⟩] ["vm"] :: requestInWindow 2
    Core.Along procStep Controller.OrderedProc start.1 es ∧
      (Core.run procStep start.1 es).bind (fun c => (c.instances "vm").map fun i => i.status.threadCount) = some 3 ∧
      ¬ Core.Along (Core.withHistory procStep noteTouched) OwnReverts start es := by
  refine ⟨Controller.ordered_of_discovery {} _ {} (by decide) (requestInWindow_keepsFleet _), ?_, ?_⟩
  · decide +kernel
  · decide +kernel

/-- a due verdict does not look at the pool: whatever its size, the failed rates alone decide -/
theorem ThresholdEngine.verdict_ignores_pool {s : InstanceState} {pending : PendingValidation} (h : Due s pending)
    (status : InstanceStatus) (context : EngineTickContext) (n : ℕ) :
    (T.evaluateInstance s { status with threadCount := n } context).2 = (T.evaluateInstance s status context).2 := by
  rw [evaluate_due h.1 h.2, evaluate_due h.1 h.2]
  rfl

end IoThreadController
