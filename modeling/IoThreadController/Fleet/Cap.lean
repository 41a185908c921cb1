/-
The per-poll cap: which entries of a tick's plan are attempted.

- `buildPlan_first`, `mem_buildPlan_first`: an entry stands for the first decision on its VM, under the position of that
  decision, and every first decision that changes a tracked VM's count has an entry.
- `accepts`: whether the attempt on an entry succeeds. It depends on the entry's own record only (`accepts_after`).
- `attempted_iff`: an entry is attempted exactly when fewer entries than the cap are accepted ahead of it.
- `mem_planOf_of`: every decision that changes the count of a tracked VM has an entry.
- `tickOutcome_eq`: together, the outcome of a VM in a tick of the threshold engine.
-/
import IoThreadController.Fleet.Evaluation

namespace IoThreadController

/-! ## Entries and decisions -/

/-- the first decision on a VM -/
def firstDecision (decisions : List InstanceDecision) (id : VmId) : Option InstanceDecision :=
  decisions.find? fun d => d.instanceId = id

/-- the position of the first decision on a VM -/
def decisionIndex (decisions : List InstanceDecision) (id : VmId) : ℕ := decisions.findIdx fun d => d.instanceId = id

theorem firstDecision_eq (decisions : List InstanceDecision) (id : VmId) :
    firstDecision decisions id = decisions[decisionIndex decisions id]? := List.find?_eq_getElem?_findIdx


theorem firstDecision_cons_of_ne {d : InstanceDecision} {id : VmId} (decisions : List InstanceDecision)
    (h : d.instanceId ≠ id) : firstDecision (d :: decisions) id = firstDecision decisions id :=
  List.find?_cons_of_neg (by simpa using h)

theorem decisionIndex_cons_of_ne {d : InstanceDecision} {id : VmId} (decisions : List InstanceDecision)
    (h : d.instanceId ≠ id) : decisionIndex (d :: decisions) id = decisionIndex decisions id + 1 := by
  unfold decisionIndex
  rw [List.findIdx_cons]
  simp [h]

/-- an entry stands for the first decision on its VM and carries the position of that decision -/
theorem buildPlan_first {instances : VmId → Option Instance} {planned : List VmId} {sequence : ℕ}
    {decisions : List InstanceDecision} {e : PlanEntry} (h : e ∈ buildPlan instances planned sequence decisions) :
    firstDecision decisions e.instanceId = some ⟨e.instanceId, e.action⟩ ∧
      e.sequence = sequence + decisionIndex decisions e.instanceId := by
  induction decisions generalizing planned sequence with
  | nil => simp [buildPlan] at h
  | cons d decisions ih =>
    have hskip : ∀ planned', d.instanceId ∈ planned' → e ∈ buildPlan instances planned' (sequence + 1) decisions →
        firstDecision (d :: decisions) e.instanceId = some ⟨e.instanceId, e.action⟩ ∧
          e.sequence = sequence + decisionIndex (d :: decisions) e.instanceId := by
      intro planned' hd hmem
      have hne : d.instanceId ≠ e.instanceId := by
        intro heq
        exact (Controller.mem_buildPlan hmem).1 (heq ▸ hd)
      obtain ⟨hfirst, hseq⟩ := ih hmem
      rw [firstDecision_cons_of_ne decisions hne, decisionIndex_cons_of_ne decisions hne]
      exact ⟨hfirst, by omega⟩
    rw [buildPlan] at h
    split_ifs at h with hp
    · exact hskip planned hp h
    · dsimp only at h
      split at h
      · split_ifs at h with heq
        · exact hskip _ List.mem_cons_self h
        · rcases List.mem_cons.1 h with rfl | h
          · exact ⟨by simp [firstDecision], by simp [decisionIndex, List.findIdx_cons]⟩
          · exact hskip _ List.mem_cons_self h
      · exact hskip _ List.mem_cons_self h

/-- a first decision that changes the count of a tracked VM has an entry -/
theorem mem_buildPlan_first {instances : VmId → Option Instance} (planned : List VmId) (sequence : ℕ)
    {decisions : List InstanceDecision} {id : VmId} {d : InstanceDecision} (hd : firstDecision decisions id = some d)
    (hp : id ∉ planned) {i : Instance} {t : ℕ} (hi : instances id = some i) (ht : d.decision.target = some t)
    (hne : t ≠ i.status.threadCount) :
    ∃ e ∈ buildPlan instances planned sequence decisions, e.instanceId = id := by
  induction decisions generalizing planned sequence with
  | nil => simp [firstDecision] at hd
  | cons first decisions ih =>
    rw [buildPlan]
    by_cases hfirst : first.instanceId = id
    · obtain rfl : first = d := by simpa [firstDecision, hfirst] using hd
      subst hfirst
      rw [if_neg hp]
      simp only [hi, ht, if_neg hne]
      exact ⟨_, List.mem_cons_self, rfl⟩
    · rw [firstDecision_cons_of_ne decisions hfirst] at hd
      split_ifs with hplanned
      · exact ih planned _ hd hp
      · obtain ⟨e, he, hid⟩ := ih (first.instanceId :: planned) (sequence + 1) hd (by simp [hp, Ne.symm hfirst])
        dsimp only
        split
        · split_ifs
          · exact ⟨e, he, hid⟩
          · exact ⟨e, List.mem_cons_of_mem _ he, hid⟩
        · exact ⟨e, he, hid⟩

/-- with one decision for each VM, every decision is the first on its VM -/
theorem firstDecision_of_nodup {decisions : List InstanceDecision}
    (hn : (decisions.map InstanceDecision.instanceId).Nodup) {d : InstanceDecision} (hd : d ∈ decisions) :
    firstDecision decisions d.instanceId = some d := by
  induction decisions with
  | nil => simp at hd
  | cons first decisions ih =>
    rw [List.map_cons, List.nodup_cons] at hn
    rcases List.mem_cons.1 hd with rfl | hd
    · exact List.find?_cons_of_pos (by simp)
    · have hne : first.instanceId ≠ d.instanceId := fun heq => hn.1 (heq ▸ List.mem_map_of_mem hd)
      rw [firstDecision_cons_of_ne decisions hne]
      exact ih hn.2 hd

namespace Controller

section Attempts

variable {E : ScalingEngine}

/-- the attempt on an entry succeeds, and counts towards the cap -/
def accepts (c : Controller E) (attempt : VmId → AttemptEnv) (entry : PlanEntry) : Bool := (c.tryEntry attempt entry).2.2

theorem accepts_eq {c : Controller E} {attempt : VmId → AttemptEnv} {entry : PlanEntry} {i : Instance} {t : ℕ}
    (hi : c.instances entry.instanceId = some i) (ht : entry.action.target = some t) :
    c.accepts attempt entry = (c.attemptOutcome (attempt entry.instanceId) i entry.action t).isApplied := by
  unfold accepts tryEntry
  rw [applyEngineDecision_eq c _ hi ht]

/-- the attempt on one VM does not decide about another -/
theorem accepts_after (c : Controller E) (attempt : VmId → AttemptEnv) {entry other : PlanEntry}
    (hne : other.instanceId ≠ entry.instanceId) :
    (c.tryEntry attempt entry).1.accepts attempt other = c.accepts attempt other := by
  have hrecord := tryEntry_other c attempt entry hne
  have hapart : Apart c (c.tryEntry attempt entry).1 := applyEngineDecision_apart c _ _ _
  cases ht : other.action.target with
  | none =>
    unfold accepts tryEntry
    rw [applyEngineDecision_hold _ _ _ ht, applyEngineDecision_hold _ _ _ ht]
  | some t =>
    cases hi : c.instances other.instanceId with
    | none =>
      rw [hi] at hrecord
      unfold accepts tryEntry
      rw [applyEngineDecision_untracked c _ _ hi]
      exact congrArg (fun r => r.2.2) (applyEngineDecision_untracked _ _ _ hrecord)
    | some i =>
      rw [hi] at hrecord
      rw [accepts_eq hi ht, accepts_eq hrecord ht, attemptOutcome_apart hapart]

theorem countP_accepts_after (c : Controller E) (attempt : VmId → AttemptEnv) {entry : PlanEntry}
    {plan : List PlanEntry} (h : entry.instanceId ∉ plan.map PlanEntry.instanceId) :
    plan.countP ((c.tryEntry attempt entry).1.accepts attempt) = plan.countP (c.accepts attempt) := by
  refine List.countP_congr ?_
  intro other hother
  have hne : other.instanceId ≠ entry.instanceId := fun heq => h (heq ▸ List.mem_map_of_mem hother)
  rw [accepts_after c attempt hne]

/-- an entry is attempted exactly when fewer entries than the cap are accepted ahead of it -/
theorem attempted_iff (c : Controller E) (attempt : VmId → AttemptEnv) (adjusted : ℕ) {ahead behind : List PlanEntry}
    {entry : PlanEntry} (hn : ((ahead ++ entry :: behind).map PlanEntry.instanceId).Nodup) :
    (∃ x ∈ c.attempts attempt adjusted (ahead ++ entry :: behind), x.2 = entry) ↔
      ¬ c.capReached (adjusted + ahead.countP (c.accepts attempt)) := by
  induction ahead generalizing c adjusted with
  | nil =>
    rw [List.nil_append, List.map_cons, List.nodup_cons] at hn
    rw [List.nil_append, attempts, List.countP_nil, Nat.add_zero]
    by_cases h : c.capReached adjusted
    · rw [if_pos h]
      refine iff_of_false ?_ (not_not.2 h)
      rintro ⟨x, hx, rfl⟩
      exact hn.1 (List.mem_map_of_mem (attempts_inv hx).1)
    · rw [if_neg h]
      exact iff_of_true ⟨_, List.mem_cons_self, rfl⟩ h
  | cons first ahead ih =>
    rw [List.cons_append, List.map_cons, List.nodup_cons] at hn
    rw [List.cons_append, attempts, List.countP_cons]
    by_cases h : c.capReached adjusted
    · rw [if_pos h, ih c adjusted hn.2]
      obtain ⟨hcap, hle⟩ := h
      refine not_congr (iff_of_true ⟨hcap, by omega⟩ ⟨hcap, ?_⟩)
      exact hle.trans (Nat.le_add_right _ _)
    · rw [if_neg h]
      have hfirst : first ≠ entry := by
        rintro rfl
        exact hn.1 (by simp)
      have hahead : first.instanceId ∉ ahead.map PlanEntry.instanceId := fun hm => hn.1 (by simp_all)
      have hcfg : (c.tryEntry attempt first).1.cfg = c.cfg := (applyEngineDecision_apart c _ _ _).cfg
      have hrest : (∃ x ∈ (c, first) :: (c.tryEntry attempt first).1.attempts attempt
            (countApplied adjusted (c.tryEntry attempt first).2.2) (ahead ++ entry :: behind), x.2 = entry) ↔
          ∃ x ∈ (c.tryEntry attempt first).1.attempts attempt
            (countApplied adjusted (c.tryEntry attempt first).2.2) (ahead ++ entry :: behind), x.2 = entry := by
        simp [hfirst]
      have hcount : countApplied adjusted (c.tryEntry attempt first).2.2 + ahead.countP (c.accepts attempt) =
          adjusted + (ahead.countP (c.accepts attempt) + if c.accepts attempt first = true then 1 else 0) := by
        unfold countApplied accepts
        split_ifs <;> omega
      rw [hrest, ih _ _ hn.2, countP_accepts_after c attempt hahead, hcount]
      unfold capReached
      rw [hcfg]

/-! ## Completeness of plans -/

/-- a decision that changes the count of a tracked VM has an entry -/
theorem mem_planOf_of {c : Controller E} {decisions : List InstanceDecision}
    (hn : (decisions.map InstanceDecision.instanceId).Nodup) {d : InstanceDecision} (hd : d ∈ decisions) {i : Instance}
    {t : ℕ} (hi : c.instances d.instanceId = some i) (ht : d.decision.target = some t)
    (hne : t ≠ i.status.threadCount) : ∃ e ∈ c.planOf decisions, e.instanceId = d.instanceId ∧ e.action = d.decision := by
  have hfirst := firstDecision_of_nodup hn hd
  obtain ⟨e, he, hid⟩ := mem_buildPlan_first [] 0 hfirst List.not_mem_nil hi ht hne
  refine ⟨e, mem_planOf.2 he, hid, ?_⟩
  have hentry := (buildPlan_first he).1
  rw [hid, hfirst, Option.some.injEq] at hentry
  rw [hentry]

/-- the entries of a plan ahead of a VM's own -/
def aheadOf (plan : List PlanEntry) (id : VmId) : List PlanEntry := plan.takeWhile fun entry => entry.instanceId ≠ id

/-- fewer entries than the cap are accepted ahead of a VM in a tick -/
def HasRoom (c : Controller E) (env : TickEnv) (id : VmId) : Prop :=
  ¬ c.capReached ((aheadOf (c.decidedTick env).2 id).countP ((c.decidedTick env).1.accepts env.attempt))

instance (c : Controller E) (env : TickEnv) (id : VmId) : Decidable (c.HasRoom env id) := by
  unfold HasRoom; infer_instance

theorem split_aheadOf {plan : List PlanEntry} (hn : (plan.map PlanEntry.instanceId).Nodup) {entry : PlanEntry}
    (h : entry ∈ plan) : ∃ behind, plan = aheadOf plan entry.instanceId ++ entry :: behind := by
  induction plan with
  | nil => simp at h
  | cons first plan ih =>
    rw [List.map_cons, List.nodup_cons] at hn
    rcases List.mem_cons.1 h with rfl | h
    · exact ⟨plan, by simp [aheadOf]⟩
    · obtain ⟨behind, hplan⟩ := ih hn.2 h
      have hne : first.instanceId ≠ entry.instanceId := fun heq => hn.1 (heq ▸ List.mem_map_of_mem h)
      refine ⟨behind, ?_⟩
      unfold aheadOf at hplan ⊢
      rw [List.takeWhile_cons_of_pos (by simpa using hne), List.cons_append, ← hplan]

end Attempts

/-! ## Outcomes of a tick -/

variable {T : ThresholdEngine} {c : Controller (thresholdEngine T)} {env : TickEnv} {id : VmId}

theorem decisions_nodup (hk : c.Keyed) (ho : Enumerates env.order c.instances) :
    (((c.prepareTick env).1.decideFleet env).2.map InstanceDecision.instanceId).Nodup := by
  have hdec : ((c.prepareTick env).1.decideFleet env).2 = _ :=
    ThresholdEngine.evaluateFleet_decisions (T := T) (c.prepareTick env).1.engineState (c.contextOf env)
      (prepared_fleet_nodup hk ho)
  rw [hdec, List.map_map]
  exact (List.filter_sublist.map Instance.id).nodup (prepared_fleet_nodup hk ho)

/-- a decision that changes the count of a VM is attempted exactly when there is room for it, and the attempt is what
its guards and the backend make of it -/
theorem tickOutcome_eq (hk : c.Keyed) (ho : Enumerates env.order c.instances) (hok : (c.tick env).2.2 = .ok ())
    {r : InstanceState × ScaleAction} (hr : c.evaluation env id = some r) {i : Instance}
    (hrec : c.refreshedRecord env id = some i) {t : ℕ} (ht : r.2.target = some t) (hne : t ≠ i.status.threadCount) :
    c.tickOutcome env id = if c.HasRoom env id then some (c.wouldReport env i r.2 t) else none := by
  have hprep : (c.prepareTick env).2.2 = .ok () := by rw [← tick_result]; exact hok
  have hdec : ⟨id, r.2⟩ ∈ ((c.prepareTick env).1.decideFleet env).2 := (mem_decisions hk ho).2 ⟨r, hr, rfl⟩
  have hi : (c.decidedTick env).1.instances id = some i := by rw [decidedTick_instances]; exact hrec
  have hentry : ∃ e ∈ (c.decidedTick env).2, e.instanceId = id ∧ e.action = r.2 :=
    mem_planOf_of (decisions_nodup hk ho) hdec hi ht hne
  obtain ⟨entry, hmem, rfl, hact⟩ := hentry
  have hnodup : ((c.decidedTick env).2.map PlanEntry.instanceId).Nodup := planOf_nodup _ _
  obtain ⟨behind, hplan⟩ := split_aheadOf hnodup hmem
  have hattempts := tickAttempts_ok hprep
  have hiff : (∃ x ∈ c.tickAttempts env, x.2 = entry) ↔ c.HasRoom env entry.instanceId := by
    rw [hplan] at hnodup
    have hattempted := attempted_iff (c.decidedTick env).1 env.attempt 0 hnodup
    rw [← hplan, Nat.zero_add, ← hattempts] at hattempted
    rw [hattempted]
    unfold HasRoom capReached
    rw [decidedTick_cfg]
  by_cases hroom : c.HasRoom env entry.instanceId
  · rw [if_pos hroom]
    obtain ⟨x, hx, rfl⟩ := hiff.2 hroom
    obtain ⟨j, t', hj, ht', -, hout⟩ := tickOutcome_of_attempt hk hx
    obtain rfl : j = i := Option.some.inj (hj.symm.trans hrec)
    rw [hact] at ht' hout
    obtain rfl : t' = t := Option.some.inj (ht'.symm.trans ht)
    exact hout
  · rw [if_neg hroom]
    cases hout : c.tickOutcome env entry.instanceId with
    | none => rfl
    | some o =>
      obtain ⟨x, hx, hid⟩ := attempt_of_tickOutcome hout
      have hsame : x.2 = entry :=
        List.inj_on_of_nodup_map hnodup (attempts_inv (mem_tickAttempts hx)).1 hmem hid
      exact absurd (hiff.1 ⟨x, hx, hsame⟩) hroom

/-- whether the attempt on a VM in a tick succeeds -/
theorem wouldReport_isApplied {i : Instance} {action : ScaleAction} {t : ℕ} :
    (c.wouldReport env i action t).isApplied = true ↔
      (c.decidedTick env).1.guard i.status action t (env.attempt i.id).checkedAt = none ∧
        (c.cfg.dryRun = true ∨ (env.attempt i.id).backend = .ok ()) := by
  unfold wouldReport attemptOutcome
  rw [decidedTick_cfg]
  cases (c.decidedTick env).1.guard i.status action t (env.attempt i.id).checkedAt with
  | some reason => simp [AppliedOutcome.isApplied]
  | none =>
    cases c.cfg.dryRun with
    | true => simp [AppliedOutcome.isApplied]
    | false => cases (env.attempt i.id).backend <;> simp [AppliedOutcome.isApplied]

end Controller

end IoThreadController
