/-
How a tick carries out the decisions of its engine.

- `planOf_sorted`: entries that shrink a pool come first, and entries of one direction keep the order of their decisions.
- `attempts_append`: attempts on a plan go on with what the first part of it left of the cap.
- `PlanLaw`: what a list of attempts has to be for a list of decisions. `attempts_law` and `plan_executed` say that every
  plan and every tick meet it.
-/
import IoThreadController.Fleet.Cap

namespace IoThreadController

/-! ## The order of a plan -/

instance : Std.Total PlanEntry.le := by
  refine ⟨fun a b => ?_⟩
  unfold PlanEntry.le
  rcases lt_trichotomy a.isUp b.isUp with h | h | h
  · exact Or.inl (Or.inl h)
  · rcases le_total a.sequence b.sequence with hs | hs
    · exact Or.inl (Or.inr ⟨h, hs⟩)
    · exact Or.inr (Or.inr ⟨h.symm, hs⟩)
  · exact Or.inr (Or.inl h)

instance : IsTrans PlanEntry PlanEntry.le := by
  refine ⟨fun a b c hab hbc => ?_⟩
  unfold PlanEntry.le at *
  rcases hab with hab | ⟨hab, hs⟩
  · rcases hbc with hbc | ⟨hbc, -⟩
    · exact Or.inl (hab.trans hbc)
    · exact Or.inl (hbc ▸ hab)
  · rcases hbc with hbc | ⟨hbc, hs'⟩
    · exact Or.inl (hab ▸ hbc)
    · exact Or.inr ⟨hab.trans hbc, hs.trans hs'⟩

namespace Controller

variable {E : ScalingEngine}

/-- shrinking entries first, and entries of one direction in the order of their decisions -/
theorem planOf_sorted (c : Controller E) (decisions : List InstanceDecision) :
    (c.planOf decisions).Pairwise fun a b => (a.isUp = true → b.isUp = true) ∧
      (a.isUp = b.isUp → decisionIndex decisions a.instanceId < decisionIndex decisions b.instanceId) := by
  have hsorted : (c.planOf decisions).Pairwise PlanEntry.le := List.pairwise_insertionSort _ _
  have hdistinct : (c.planOf decisions).Pairwise fun a b => a.instanceId ≠ b.instanceId :=
    List.pairwise_map.1 (c.planOf_nodup decisions)
  refine (hsorted.and hdistinct).imp_of_mem ?_
  rintro a b ha hb ⟨hle, hne⟩
  obtain ⟨hfirst, hseq⟩ := buildPlan_first (mem_planOf.1 ha)
  obtain ⟨hfirst', hseq'⟩ := buildPlan_first (mem_planOf.1 hb)
  refine ⟨?_, ?_⟩
  · intro hup
    rcases hle with hlt | ⟨heq, -⟩
    · rw [hup] at hlt
      exact absurd hlt (by cases b.isUp <;> decide)
    · rw [← heq]
      exact hup
  · intro heq
    rcases hle with hlt | ⟨-, hle⟩
    · exact absurd heq hlt.ne
    · have hindex : decisionIndex decisions a.instanceId ≠ decisionIndex decisions b.instanceId := by
        intro hsame
        rw [firstDecision_eq, hsame, ← firstDecision_eq, hfirst', Option.some.injEq] at hfirst
        exact hne (congrArg InstanceDecision.instanceId hfirst).symm
      omega

/-! ## The attempts on a plan -/

/-- the attempt counts towards the cap -/
def succeeds (attempt : VmId → AttemptEnv) (x : Controller E × PlanEntry) : Bool := x.1.accepts attempt x.2

/-- when the cap is used up, no further entry is attempted -/
theorem attempts_capReached {c : Controller E} {adjusted : ℕ} (h : c.capReached adjusted) (attempt : VmId → AttemptEnv)
    (plan : List PlanEntry) : c.attempts attempt adjusted plan = [] := by
  induction plan with
  | nil => rfl
  | cons entry plan ih => rw [attempts, if_pos h, ih]

/-- the attempts on a plan in two parts: the second part goes on with what the first left of the cap -/
theorem attempts_append (c : Controller E) (attempt : VmId → AttemptEnv) (adjusted : ℕ) (first second : List PlanEntry) :
    c.attempts attempt adjusted (first ++ second) = c.attempts attempt adjusted first ++
      (c.applyPlan attempt adjusted first).1.attempts attempt
        (adjusted + (c.attempts attempt adjusted first).countP (succeeds attempt)) second := by
  induction first generalizing c adjusted with
  | nil => rfl
  | cons entry first ih =>
    rw [List.cons_append, attempts, attempts, applyPlan_cons]
    by_cases h : c.capReached adjusted
    · rw [if_pos h, if_pos h, if_pos h]
      exact ih c adjusted
    · rw [if_neg h, if_neg h, if_neg h, ih, List.cons_append, List.countP_cons]
      have hcount : ∀ n : ℕ, countApplied adjusted (c.tryEntry attempt entry).2.2 + n =
          adjusted + (n + if succeeds attempt (c, entry) = true then 1 else 0) := by
        intro n
        unfold countApplied succeeds accepts
        split_ifs
        · omega
        · omega
      rw [hcount]

/-- with a cap, no more attempts succeed than the cap has left -/
theorem countP_succeeds_le {c : Controller E} (attempt : VmId → AttemptEnv) {adjusted : ℕ} (plan : List PlanEntry)
    (hcap : 0 < c.cfg.maxInstancesAdjustedPerPoll) (hle : adjusted ≤ c.cfg.maxInstancesAdjustedPerPoll) :
    adjusted + (c.attempts attempt adjusted plan).countP (succeeds attempt) ≤ c.cfg.maxInstancesAdjustedPerPoll := by
  induction plan generalizing c adjusted with
  | nil => simpa [attempts] using hle
  | cons entry plan ih =>
    rw [attempts]
    by_cases h : c.capReached adjusted
    · rw [if_pos h]
      exact ih hcap hle
    · rw [if_neg h, List.countP_cons]
      have hless : adjusted < c.cfg.maxInstancesAdjustedPerPoll := not_le.1 fun hle => h ⟨hcap, hle⟩
      have hcfg : (c.tryEntry attempt entry).1.cfg = c.cfg := (applyEngineDecision_apart c _ _ _).cfg
      have hnext : countApplied adjusted (c.tryEntry attempt entry).2.2 ≤ c.cfg.maxInstancesAdjustedPerPoll := by
        unfold countApplied
        split_ifs
        · omega
        · omega
      have hrest := ih (c := (c.tryEntry attempt entry).1) (hcfg ▸ hcap) (hcfg ▸ hnext)
      rw [hcfg] at hrest
      refine le_trans ?_ hrest
      unfold succeeds accepts countApplied
      split_ifs
      · omega
      · omega

/-! ## The law -/

/-- the attempt asks for more workers than its VM has -/
def Grows (x : Controller E × PlanEntry) : Prop :=
  ∃ i t, x.1.instances x.2.instanceId = some i ∧ x.2.action.target = some t ∧ i.status.threadCount < t

/-- the attempt asks for fewer workers than its VM has -/
def Shrinks (x : Controller E × PlanEntry) : Prop :=
  ∃ i t, x.1.instances x.2.instanceId = some i ∧ x.2.action.target = some t ∧ t < i.status.threadCount

/-- the first decision on the VM would change the count of a tracked record -/
def Qualifies (c : Controller E) (decisions : List InstanceDecision) (id : VmId) : Prop :=
  ∃ d i t, firstDecision decisions id = some d ∧ c.instances id = some i ∧ d.decision.target = some t ∧
    t ≠ i.status.threadCount

/-- what the attempts of a tick are for the decisions of its engine -/
structure PlanLaw (c : Controller E) (decisions : List InstanceDecision) (attempt : VmId → AttemptEnv)
    (tried : List (Controller E × PlanEntry)) : Prop where
  once : (tried.map fun x => x.2.instanceId).Nodup
  first : ∀ x ∈ tried, firstDecision decisions x.2.instanceId = some ⟨x.2.instanceId, x.2.action⟩
  changes : ∀ x ∈ tried, Qualifies c decisions x.2.instanceId ∧ (Grows x ∨ Shrinks x)
  shrink_first : tried.Pairwise fun x y => Grows x → ¬ Shrinks y
  in_order : tried.Pairwise fun x y => (Grows x ↔ Grows y) →
    decisionIndex decisions x.2.instanceId < decisionIndex decisions y.2.instanceId
  cap : 0 < c.cfg.maxInstancesAdjustedPerPoll →
    tried.countP (succeeds attempt) ≤ c.cfg.maxInstancesAdjustedPerPoll
  /-- a qualifying VM without an attempt comes after all attempts, and the cap was used up by then -/
  left_out : ∀ id, Qualifies c decisions id → (∀ x ∈ tried, x.2.instanceId ≠ id) →
    0 < c.cfg.maxInstancesAdjustedPerPoll ∧
      tried.countP (succeeds attempt) = c.cfg.maxInstancesAdjustedPerPoll ∧
      tried = c.attempts attempt 0 (aheadOf (c.planOf decisions) id)
  uncapped : c.cfg.maxInstancesAdjustedPerPoll = 0 → ∀ id, Qualifies c decisions id →
    ∃ x ∈ tried, x.2.instanceId = id

section Law

variable {c : Controller E} {decisions : List InstanceDecision} {attempt : VmId → AttemptEnv}

/-- an attempt meets the record that its entry was planned for, and its flag says whether it grows the pool -/
theorem attempt_direction {x : Controller E × PlanEntry} (hx : x ∈ c.attempts attempt 0 (c.planOf decisions)) :
    (Grows x ↔ x.2.isUp = true) ∧ (Shrinks x ↔ x.2.isUp = false) := by
  obtain ⟨hmem, -⟩ := attempts_inv hx
  obtain ⟨-, -, i, t, hi, ht, hne, hup⟩ := mem_buildPlan (mem_planOf.1 hmem)
  have hrec : x.1.instances x.2.instanceId = some i := (attempts_record (planOf_nodup _ _) hx).trans hi
  unfold Grows Shrinks
  rw [hup, hrec, ht]
  simp only [Option.some.injEq, exists_eq_left', ↓existsAndEq, true_and, decide_eq_true_eq, decide_eq_false_iff_not]
  omega

/-- the attempts stand in the order of the plan -/
theorem attempts_pairwise (attempt : VmId → AttemptEnv) {R : PlanEntry → PlanEntry → Prop}
    (h : (c.planOf decisions).Pairwise R) :
    (c.attempts attempt 0 (c.planOf decisions)).Pairwise fun x y => R x.2 y.2 :=
  List.pairwise_map.1 (h.sublist (attempts_sublist _ _ _ _))

theorem attempts_left_out (attempt : VmId → AttemptEnv) {id : VmId} (hq : Qualifies c decisions id)
    (hnot : ∀ x ∈ c.attempts attempt 0 (c.planOf decisions), x.2.instanceId ≠ id) :
    0 < c.cfg.maxInstancesAdjustedPerPoll ∧
      (c.attempts attempt 0 (c.planOf decisions)).countP (succeeds attempt) = c.cfg.maxInstancesAdjustedPerPoll ∧
      c.attempts attempt 0 (c.planOf decisions) = c.attempts attempt 0 (aheadOf (c.planOf decisions) id) := by
  obtain ⟨d, i, t, hd, hi, ht, hne⟩ := hq
  obtain ⟨entry, hentry, rfl⟩ := mem_buildPlan_first [] 0 hd List.not_mem_nil hi ht hne
  obtain ⟨behind, hplan⟩ := split_aheadOf (c.planOf_nodup decisions) (mem_planOf.2 hentry)
  have hsplit := attempts_append c attempt 0 (aheadOf (c.planOf decisions) entry.instanceId) (entry :: behind)
  rw [← hplan, Nat.zero_add] at hsplit
  -- had the cap not been used up by then, the entry would have been attempted
  have hreached : (c.applyPlan attempt 0 (aheadOf (c.planOf decisions) entry.instanceId)).1.capReached
      ((c.attempts attempt 0 (aheadOf (c.planOf decisions) entry.instanceId)).countP (succeeds attempt)) := by
    by_contra hroom
    rw [attempts, if_neg hroom] at hsplit
    have hmem : ((c.applyPlan attempt 0 (aheadOf (c.planOf decisions) entry.instanceId)).1, entry) ∈
        c.attempts attempt 0 (c.planOf decisions) := by
      rw [hsplit]
      exact List.mem_append_right _ List.mem_cons_self
    exact hnot _ hmem rfl
  rw [attempts_capReached hreached, List.append_nil] at hsplit
  rw [hsplit]
  unfold capReached at hreached
  rw [(applyPlan_apart _ _ _ _).cfg] at hreached
  refine ⟨hreached.1, ?_, rfl⟩
  have hle := countP_succeeds_le attempt (aheadOf (c.planOf decisions) entry.instanceId) hreached.1 (Nat.zero_le _)
  rw [Nat.zero_add] at hle
  exact le_antisymm hle hreached.2

theorem attempts_law : PlanLaw c decisions attempt (c.attempts attempt 0 (c.planOf decisions)) := by
  have hentry : ∀ x ∈ c.attempts attempt 0 (c.planOf decisions), x.2 ∈ buildPlan c.instances [] 0 decisions :=
    fun x hx => mem_planOf.1 (attempts_inv hx).1
  have hsorted := attempts_pairwise attempt (c.planOf_sorted decisions)
  refine ⟨?_, ?_, ?_, ?_, ?_, ?_, fun id => attempts_left_out attempt, ?_⟩
  · have hsub := (attempts_sublist c attempt 0 (c.planOf decisions)).map PlanEntry.instanceId
    rw [List.map_map] at hsub
    exact hsub.nodup (planOf_nodup _ _)
  · intro x hx
    exact (buildPlan_first (hentry x hx)).1
  · intro x hx
    obtain ⟨-, -, i, t, hi, ht, hne, -⟩ := mem_buildPlan (hentry x hx)
    refine ⟨⟨_, i, t, (buildPlan_first (hentry x hx)).1, hi, ht, hne⟩, ?_⟩
    obtain ⟨hgrows, hshrinks⟩ := attempt_direction hx
    rw [hgrows, hshrinks]
    cases x.2.isUp <;> simp
  · refine hsorted.imp_of_mem ?_
    intro x y hx hy h hgrows hshrinks
    have hup := h.1 ((attempt_direction hx).1.1 hgrows)
    rw [(attempt_direction hy).2.1 hshrinks] at hup
    simp at hup
  · refine hsorted.imp_of_mem ?_
    intro x y hx hy h hsame
    apply h.2
    rw [(attempt_direction hx).1, (attempt_direction hy).1] at hsame
    exact Bool.eq_iff_iff.2 hsame
  · intro hcap
    have hle := countP_succeeds_le attempt (c.planOf decisions) hcap (Nat.zero_le _)
    rwa [Nat.zero_add] at hle
  · intro hzero id hq
    by_contra hnone
    have hpos := (attempts_left_out attempt hq fun x hx hid => hnone ⟨x, hx, hid⟩).1
    omega

end Law

/-- every plan and every tick, of every engine over every inventory, carry out the decisions by the law, and the effects of
a plan are those of its attempts -/
theorem plan_executed (c : Controller E) :
    (∀ decisions attempt, PlanLaw c decisions attempt (c.attempts attempt 0 (c.planOf decisions)) ∧
      (c.applyPlan attempt 0 (c.planOf decisions)).2 =
        (c.attempts attempt 0 (c.planOf decisions)).flatMap fun x => (x.1.tryEntry attempt x.2).2.1) ∧
    ∀ env, (c.tick env).2.2 = .ok () →
      PlanLaw (c.decidedTick env).1 ((c.prepareTick env).1.decideFleet env).2 env.attempt (c.tickAttempts env) ∧
      (c.tick env).2.1 =
        (c.prepareTick env).2.1 ++ (c.tickAttempts env).flatMap fun x => (x.1.tryEntry env.attempt x.2).2.1 := by
  refine ⟨?_, ?_⟩
  · intro decisions attempt
    exact ⟨attempts_law, applyPlan_effects c attempt 0 _⟩
  · intro env hok
    refine ⟨?_, tick_effects c env⟩
    have hprep : (c.prepareTick env).2.2 = .ok () := by rw [← tick_result]; exact hok
    rw [tickAttempts_ok hprep]
    exact attempts_law

/-- two VMs and a cap of one: the scale-down that the engine decides last is the only attempt -/
theorem plan_executed_capped :
    let E := ScalingEngine.stateless fun i => if i.id = "a" then .up 5 else .down 3
    let busy : ThreadPoolSnapshot := { threadCount := 4, vcpuCount := 8, perThreadUtil := some 0 }
    let start : Controller E := Controller.new { maxInstancesAdjustedPerPoll := 1 } () { managedVms := {"a", "b"} }
    let c := (start.step (.sync [⟨"a", 1⟩, ⟨"b", 2⟩] ["a", "b"])).1
    let env : TickEnv := { TickEnv.single "a" 0 0 (.ok busy) with order := ["a", "b"] }
    PlanLaw (c.decidedTick env).1 ((c.prepareTick env).1.decideFleet env).2 env.attempt (c.tickAttempts env) ∧
      (c.tickAttempts env).map (fun x => x.2.instanceId) = ["b"] :=
  ⟨((plan_executed _).2 _ (by decide +kernel)).1, by decide +kernel⟩

end Controller

end IoThreadController
