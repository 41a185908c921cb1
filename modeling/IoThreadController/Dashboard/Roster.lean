/-
The roster of the dashboard over whole runs of its sampler.

The abstract roster of a history of snapshots has an age for each VM: the snapshots since the latest one that lists it
(`Core.age`). `Tui.age` reads the age off the roster and the streaks.

- `reconcile_tidy`, `reconcile_age`: a reconciliation keeps the roster sorted and takes every age one snapshot on. New VMs,
  streaks and drops are three phases of the source, and one step of the age.
- `rosterOf_step`: so the ages are those of the history after every pass, also when polls fail.
- `roster_window`: the roster has the selected VMs of the latest four snapshots, one more than `MISSING_STREAK_DROP`.
- `roster_right_iff`: it has those of the latest three exactly as long as no VM is overdue.
-/
import IoThreadController.Core.Keyed
import IoThreadController.Core.Run
import IoThreadController.Core.Streak
import IoThreadController.Model.Dashboard

namespace IoThreadController

def SnapshotPayload.ids (p : SnapshotPayload) : List VmId := p.vms.map (·.id)

def Tui.ids (s : Tui) : List VmId := s.vms.map (·.id)

/-- the snapshot lists the VM, and the filter lets it through -/
def listed (select : List String) (id : VmId) (p : SnapshotPayload) : Bool := selected select id && decide (id ∈ p.ids)

theorem listed_iff {select : List String} {id : VmId} {p : SnapshotPayload} :
    listed select id p = true ↔ selected select id = true ∧ id ∈ p.ids := by
  simp [listed]

theorem exists_listed {select : List String} {id : VmId} {l : List SnapshotPayload} :
    (∃ p ∈ l, listed select id p = true) ↔ selected select id = true ∧ ∃ p ∈ l, id ∈ p.ids := by
  simp only [listed_iff]
  constructor
  · rintro ⟨p, hp, hselected, hid⟩
    exact ⟨hselected, p, hp, hid⟩
  · rintro ⟨hselected, p, hp, hid⟩
    exact ⟨p, hp, hselected, hid⟩

/-- the roster is sorted and has no VM twice, and a streak is a VM's of the roster and not over yet -/
structure Tui.Tidy (s : Tui) : Prop where
  sorted : s.ids.Pairwise (· < ·)
  streak : ∀ id n, s.missingStreak id = some n → id ∈ s.ids ∧ 0 < n ∧ n ≤ missingStreakDrop

/-- the snapshots that have omitted a VM of the roster -/
def Tui.age (s : Tui) (id : VmId) : Option ℕ := if id ∈ s.ids then some ((s.missingStreak id).getD 0) else none

theorem Tui.age_isSome {s : Tui} {id : VmId} : (s.age id).isSome = true ↔ id ∈ s.ids := by
  unfold Tui.age
  split_ifs with h <;> simp [h]

theorem Tui.ids_nodup {s : Tui} (h : s.Tidy) : s.ids.Nodup := h.sorted.imp ne_of_lt

section
variable (select : List String) (s : Tui) (p : SnapshotPayload)

/-! ## New VMs -/

def wantedIds : List VmId := (p.vms.filter fun d => selected select d.id).map (·.id)

theorem mem_wantedIds {id : VmId} : id ∈ wantedIds select p ↔ listed select id p = true := by
  simp only [listed_iff, wantedIds, SnapshotPayload.ids, List.mem_map, List.mem_filter]
  constructor
  · rintro ⟨d, ⟨hd, hselected⟩, rfl⟩
    exact ⟨hselected, d, hd, rfl⟩
  · rintro ⟨hselected, d, hd, rfl⟩
    exact ⟨d, ⟨hd, hselected⟩, rfl⟩

/-- the loop body that appends new VMs -/
def appendNew (roster : List VmState) (d : SnapshotVm) : List VmState :=
  if d.id ∉ wantedIds select p then roster
  else if d.id ∈ s.ids then roster
  else roster ++ [VmState.new d.id roster.length]

/-- the roster after the second phase -/
def grown : List VmState :=
  if (wantedIds select p).any fun id => id ∉ s.ids then
    (p.vms.foldl (appendNew select s p) s.vms).insertionSort fun a b => a.id ≤ b.id
  else s.vms

/-- the ids that the second phase adds -/
def newIds : List VmId := p.ids.filter fun id => id ∈ wantedIds select p ∧ id ∉ s.ids

theorem foldl_appendNew (l : List SnapshotVm) (roster : List VmState) :
    roster ⊆ l.foldl (appendNew select s p) roster ∧
      (l.foldl (appendNew select s p) roster).map (·.id) =
        roster.map (·.id) ++ (l.map (·.id)).filter fun id => id ∈ wantedIds select p ∧ id ∉ s.ids := by
  induction l generalizing roster with
  | nil => simp
  | cons d l ih =>
    obtain ⟨hsub, hids⟩ := ih (appendNew select s p roster d)
    rw [List.foldl_cons, List.map_cons, List.filter_cons]
    by_cases hnew : d.id ∈ wantedIds select p ∧ d.id ∉ s.ids
    · have happend : appendNew select s p roster d = roster ++ [VmState.new d.id roster.length] := by
        simp [appendNew, hnew.1, hnew.2]
      rw [happend] at hsub hids ⊢
      refine ⟨fun vm hvm => hsub (List.mem_append_left _ hvm), ?_⟩
      rw [hids, if_pos (decide_eq_true hnew)]
      simp [VmState.new]
    · have hsame : appendNew select s p roster d = roster := by
        by_cases hwanted : d.id ∈ wantedIds select p
        · have hold : d.id ∈ s.ids := by_contra fun hold => hnew ⟨hwanted, hold⟩
          simp [appendNew, hold]
        · simp [appendNew, hwanted]
      rw [hsame] at hsub hids ⊢
      refine ⟨hsub, ?_⟩
      rw [hids, if_neg (by simpa using hnew)]

theorem grown_subset : s.vms ⊆ grown select s p := by
  unfold grown
  split_ifs
  · intro vm hvm
    rw [List.mem_insertionSort]
    exact (foldl_appendNew select s p p.vms s.vms).1 hvm
  · exact List.Subset.refl _

theorem grown_ids : ((grown select s p).map (·.id)).Perm (s.ids ++ newIds select s p) := by
  unfold grown
  split_ifs with hnew
  · refine ((List.perm_insertionSort _ _).map _).trans ?_
    rw [(foldl_appendNew select s p p.vms s.vms).2]
    rfl
  · have hnone : newIds select s p = [] := by
      unfold newIds
      rw [List.filter_eq_nil_iff]
      rintro id - hid
      simp only [List.any_eq_true, not_exists, not_and] at hnew
      simp only [decide_eq_true_eq] at hid hnew
      exact hnew id hid.1 hid.2
    rw [hnone, List.append_nil]
    rfl

theorem mem_grown_ids {id : VmId} : id ∈ (grown select s p).map (·.id) ↔ id ∈ s.ids ∨ listed select id p = true := by
  rw [(grown_ids select s p).mem_iff, List.mem_append, newIds, List.mem_filter]
  simp only [decide_eq_true_eq, mem_wantedIds]
  constructor
  · rintro (hid | ⟨-, hid, -⟩)
    · exact Or.inl hid
    · exact Or.inr hid
  · rintro (hid | hid)
    · exact Or.inl hid
    · by_cases hold : id ∈ s.ids
      · exact Or.inl hold
      · exact Or.inr ⟨(listed_iff.1 hid).2, hid, hold⟩

/-- a VM of the roster with new VMs is one of the old roster, or a new one that the reply lists -/
theorem mem_grown_cases {vm : VmState} (h : vm ∈ grown select s p) :
    vm ∈ s.vms ∨ vm.id ∉ s.ids ∧ listed select vm.id p = true ∧ ∃ colorIdx, vm = VmState.new vm.id colorIdx := by
  have hfold : ∀ (l : List SnapshotVm) (roster : List VmState), vm ∈ l.foldl (appendNew select s p) roster →
      vm ∈ roster ∨ vm.id ∉ s.ids ∧ listed select vm.id p = true ∧ ∃ colorIdx, vm = VmState.new vm.id colorIdx := by
    intro l
    induction l with
    | nil => exact fun roster h => Or.inl h
    | cons d l ih =>
      intro roster h
      rcases ih _ h with h | h
      · unfold appendNew at h
        by_cases hwanted : d.id ∈ wantedIds select p
        · rw [if_neg (not_not.2 hwanted)] at h
          by_cases hold : d.id ∈ s.ids
          · exact Or.inl (by rwa [if_pos hold] at h)
          · rw [if_neg hold] at h
            rcases List.mem_append.1 h with h | h
            · exact Or.inl h
            · rw [List.mem_singleton.1 h]
              exact Or.inr ⟨hold, (mem_wantedIds select p).1 hwanted, _, rfl⟩
        · exact Or.inl (by rwa [if_pos hwanted] at h)
      · exact Or.inr h
  unfold grown at h
  split_ifs at h
  · exact hfold _ _ ((List.mem_insertionSort _).1 h)
  · exact Or.inl h

variable {s} {p}

theorem grown_sorted (h : s.Tidy) (hp : p.ids.Nodup) : ((grown select s p).map (·.id)).Pairwise (· < ·) := by
  have hnodup : (s.ids ++ newIds select s p).Nodup := by
    apply (Tui.ids_nodup h).append (hp.filter _)
    intro id hold hnew
    simp only [List.mem_filter, decide_eq_true_eq] at hnew
    exact hnew.2.2 hold
  have hgrown := (grown_ids select s p).nodup_iff.2 hnodup
  unfold grown at hgrown ⊢
  split_ifs at hgrown ⊢
  · apply Core.insertionSort_key_lt
    exact ((List.perm_insertionSort _ _).map _).nodup_iff.1 hgrown
  · exact h.sorted

/-! ## Streaks and drops -/

variable (s) (p)

/-- the streaks before the drops -/
def counted (id : VmId) : Option ℕ :=
  if id ∈ s.ids then
    if id ∈ wantedIds select p then none else some (satAdd32 ((s.missingStreak id).getD 0) 1)
  else s.missingStreak id

def toDrop (id : VmId) : Bool := (counted select s p id).any fun c => missingStreakDrop < c

/-- the three phases -/
theorem reconcile_eq : reconcileWithSnapshot select s p =
    { s with
      vms := (grown select s p).filter fun vm => !toDrop select s p vm.id
      missingStreak := fun id => if toDrop select s p id then none else counted select s p id } := rfl

theorem mem_reconcile_ids {id : VmId} : id ∈ (reconcileWithSnapshot select s p).ids ↔
    (id ∈ s.ids ∨ listed select id p = true) ∧ toDrop select s p id = false := by
  rw [reconcile_eq, Tui.ids, ← mem_grown_ids]
  simp only [List.mem_map, List.mem_filter, Bool.not_eq_true']
  constructor
  · rintro ⟨vm, ⟨hvm, hdrop⟩, rfl⟩
    exact ⟨⟨vm, hvm, rfl⟩, hdrop⟩
  · rintro ⟨⟨vm, hvm, rfl⟩, hdrop⟩
    exact ⟨vm, ⟨hvm, hdrop⟩, rfl⟩

variable {s} {p}

/-- a listed VM has no streak, and one that is neither listed nor known has none either -/
theorem counted_none (h : s.Tidy) {id : VmId} (hid : listed select id p = true ∨ id ∉ s.ids) :
    counted select s p id = none := by
  unfold counted
  by_cases hold : id ∈ s.ids
  · have hlisted : listed select id p = true := hid.resolve_right (not_not.2 hold)
    rw [if_pos hold, if_pos ((mem_wantedIds select p).2 hlisted)]
  · rw [if_neg hold, Option.eq_none_iff_forall_ne_some]
    intro n hn
    exact hold (h.streak id n hn).1

/-- an omitted VM of the roster has one more -/
theorem counted_missed (h : s.Tidy) {id : VmId} (hold : id ∈ s.ids) (hid : listed select id p = false) :
    counted select s p id = some ((s.missingStreak id).getD 0 + 1) := by
  have hwanted : id ∉ wantedIds select p := by
    rw [mem_wantedIds, hid]
    exact Bool.false_ne_true
  have hle : (s.missingStreak id).getD 0 ≤ missingStreakDrop := by
    cases hn : s.missingStreak id with
    | none => exact Nat.zero_le _
    | some n => exact (h.streak id n hn).2.2
  unfold counted
  rw [if_pos hold, if_neg hwanted, satAdd32, min_eq_left]
  simp only [missingStreakDrop, u32Max] at hle ⊢
  omega

theorem reconcile_tidy (h : s.Tidy) (hp : p.ids.Nodup) : (reconcileWithSnapshot select s p).Tidy := by
  refine ⟨?_, ?_⟩
  · exact List.Pairwise.sublist (List.filter_sublist.map _) (grown_sorted select h hp)
  · intro id n hn
    rw [mem_reconcile_ids]
    simp only [reconcile_eq] at hn
    cases hdrop : toDrop select s p id with
    | true => simp [hdrop] at hn
    | false =>
      rw [if_neg (by simp [hdrop])] at hn
      have hle : n ≤ missingStreakDrop := by
        simpa [toDrop, hn] using hdrop
      by_cases hid : listed select id p = true ∨ id ∉ s.ids
      · rw [counted_none select h hid] at hn
        cases hn
      · rw [not_or, not_not, Bool.not_eq_true] at hid
        rw [counted_missed select h hid.2 hid.1, Option.some.injEq] at hn
        exact ⟨⟨Or.inl hid.2, rfl⟩, by omega, hle⟩

/-- one snapshot later every age is one step on -/
theorem reconcile_age (h : s.Tidy) (id : VmId) : (reconcileWithSnapshot select s p).age id =
    Core.nextAge missingStreakDrop (s.age id) (listed select id p) := by
  simp only [Tui.age, mem_reconcile_ids]
  cases hid : listed select id p with
  | true =>
    have hcount := counted_none select h (Or.inl hid)
    have hdrop : toDrop select s p id = false := by simp [toDrop, hcount]
    simp [reconcile_eq, hdrop, hcount, Core.nextAge]
  | false =>
    by_cases hold : id ∈ s.ids
    · have hcount := counted_missed select h hold hid
      by_cases hover : missingStreakDrop < (s.missingStreak id).getD 0 + 1
      · have hdrop : toDrop select s p id = true := by simp [toDrop, hcount, hover]
        simp [hold, hdrop, Core.nextAge, Option.filter_some]
        omega
      · have hdrop : toDrop select s p id = false := by simp [toDrop, hcount, hover]
        simp [reconcile_eq, hold, hdrop, hcount, Core.nextAge, Option.filter_some]
        omega
    · simp [hold, Core.nextAge]

/-- a VM that stays keeps its record -/
theorem mem_reconcile_of_mem {vm : VmState} (hvm : vm ∈ s.vms) (hid : vm.id ∈ (reconcileWithSnapshot select s p).ids) :
    vm ∈ (reconcileWithSnapshot select s p).vms := by
  rw [mem_reconcile_ids] at hid
  rw [reconcile_eq, List.mem_filter]
  refine ⟨grown_subset select s p hvm, ?_⟩
  simp [hid.2]

/-- a VM that the snapshot lists has no streak -/
theorem reconcile_restarts (h : s.Tidy) {id : VmId} (hid : listed select id p = true) :
    (reconcileWithSnapshot select s p).missingStreak id = none := by
  simp [reconcile_eq, counted_none select h (Or.inl hid)]

end

/-! ## The sampler -/

@[simp] theorem recordSamples_ids (s : Tui) (t : ℚ) (p : SnapshotPayload) : (recordSamples s t p).ids = s.ids := by
  simp only [Tui.ids, recordSamples, List.map_map]
  apply List.map_congr_left
  intro vm _
  simp only [Function.comp_apply]
  split <;> rfl

@[simp] theorem recordSamples_age (s : Tui) (t : ℚ) (p : SnapshotPayload) (id : VmId) :
    (recordSamples s t p).age id = s.age id := by
  unfold Tui.age
  rw [recordSamples_ids]
  rfl

theorem recordSamples_tidy {s : Tui} (h : s.Tidy) (t : ℚ) (p : SnapshotPayload) : (recordSamples s t p).Tidy := by
  refine ⟨?_, ?_⟩
  · rw [recordSamples_ids]
    exact h.sorted
  · intro id n hn
    rw [recordSamples_ids]
    exact h.streak id n hn

/-- the snapshots that have been polled, the latest one first -/
def noteReply (_ : Tui) : SamplerPass → List SnapshotPayload → List SnapshotPayload
  | .polled _ p, history => p :: history
  | .paused, history | .failed _, history => history

def samplerHistory (select : List String) : Tui × List SnapshotPayload → SamplerPass → Tui × List SnapshotPayload :=
  Core.withHistory (samplerPass select) noteReply

/-- no snapshot lists a VM twice -/
def SamplerPass.Distinct : SamplerPass → Prop
  | .polled _ p => p.ids.Nodup
  | .paused | .failed _ => True

instance : DecidablePred SamplerPass.Distinct
  | .polled _ p => inferInstanceAs (Decidable p.ids.Nodup)
  | .paused | .failed _ => isTrue trivial

/-- the roster is tidy, and its ages are those of the history -/
structure RosterOf (select : List String) (x : Tui × List SnapshotPayload) : Prop where
  tidy : x.1.Tidy
  age : ∀ id, x.1.age id = Core.age missingStreakDrop (listed select id) x.2

theorem rosterOf_reconcile {select : List String} {x : Tui × List SnapshotPayload} (h : RosterOf select x)
    {p : SnapshotPayload} (hp : p.ids.Nodup) : RosterOf select (reconcileWithSnapshot select x.1 p, p :: x.2) := by
  refine ⟨reconcile_tidy select h.tidy hp, fun id => ?_⟩
  rw [reconcile_age select h.tidy, h.age, Core.age_cons]

/-- polls that fail and pauses change neither the roster nor the history -/
theorem rosterOf_step {select : List String} {x : Tui × List SnapshotPayload} {e : SamplerPass} (h : RosterOf select x)
    (hd : e.Distinct) : RosterOf select (samplerHistory select x e) := by
  cases e with
  | paused => exact h
  | failed error => exact ⟨⟨h.tidy.sorted, h.tidy.streak⟩, h.age⟩
  | polled elapsed p =>
    have hreconciled := rosterOf_reconcile h hd
    refine ⟨?_, fun id => ?_⟩
    · simp only [samplerHistory, Core.withHistory, samplerPass]
      apply recordSamples_tidy
      exact ⟨hreconciled.tidy.sorted, hreconciled.tidy.streak⟩
    · simp only [samplerHistory, Core.withHistory, samplerPass, recordSamples_age]
      exact hreconciled.age id

theorem rosterOf_initial (select : List String) : RosterOf select ({}, []) := by
  refine ⟨⟨List.Pairwise.nil, nofun⟩, fun id => ?_⟩
  simp [Tui.age, Tui.ids]

/-- after every pass the roster has the selected VMs of the latest four snapshots -/
theorem roster_window (select : List String) {es : List SamplerPass} (hd : ∀ e ∈ es, e.Distinct) (id : VmId) :
    let x := Core.run (samplerHistory select) ({}, []) es
    id ∈ x.1.ids ↔ selected select id = true ∧ ∃ p ∈ x.2.take (missingStreakDrop + 1), id ∈ p.ids := by
  intro x
  have hrun : RosterOf select x := Core.run_inv (RosterOf select) (fun _ _ h hc => rosterOf_step h hc)
    (rosterOf_initial select) (Core.along_of_forall _ _ hd)
  rw [← Tui.age_isSome, hrun.age, Core.age_isSome, exists_listed]

/-! ## Three snapshots or four -/

/-- what `MISSING_STREAK_DROP` says of a reconciliation: the roster is sorted and has the selected VMs of the latest
snapshots, as many as the constant says; VMs that stay keep their records; VMs that return have no streak -/
structure RosterRight (select : List String) (history : List SnapshotPayload) (before after : Tui) : Prop where
  sorted : after.ids.Pairwise (· < ·)
  members : ∀ id, id ∈ after.ids ↔ selected select id = true ∧ ∃ p ∈ history.take missingStreakDrop, id ∈ p.ids
  kept : ∀ vm ∈ before.vms, vm.id ∈ after.ids → vm ∈ after.vms
  restarted : ∀ p ∈ history.head?, ∀ id ∈ before.ids, id ∈ p.ids → after.missingStreak id = none

/-- every selected VM of the snapshot before the latest three is listed by one of these -/
def NoneOverdue (select : List String) (history : List SnapshotPayload) : Prop :=
  ∀ p ∈ history[missingStreakDrop]?, ∀ id ∈ p.ids, selected select id = true →
    ∃ q ∈ history.take missingStreakDrop, id ∈ q.ids

instance (select : List String) (history : List SnapshotPayload) : Decidable (NoneOverdue select history) := by
  unfold NoneOverdue
  infer_instance

def RosterRightAt (select : List String) (x : Tui × List SnapshotPayload) : SamplerPass → Prop
  | .polled _ p => RosterRight select (p :: x.2) x.1 (reconcileWithSnapshot select x.1 p)
  | .paused | .failed _ => True

def NoneOverdueAt (select : List String) (x : Tui × List SnapshotPayload) : SamplerPass → Prop
  | .polled _ p => NoneOverdue select (p :: x.2)
  | .paused | .failed _ => True

instance (select : List String) (x : Tui × List SnapshotPayload) : DecidablePred (NoneOverdueAt select x)
  | .polled _ p => inferInstanceAs (Decidable (NoneOverdue select (p :: x.2)))
  | .paused | .failed _ => isTrue trivial

/-- the two windows have the same selected VMs exactly when none is overdue -/
theorem windows_agree_iff (select : List String) (history : List SnapshotPayload) :
    (∀ id, (∃ p ∈ history.take (missingStreakDrop + 1), listed select id p = true) ↔
      ∃ p ∈ history.take missingStreakDrop, listed select id p = true) ↔ NoneOverdue select history := by
  simp only [Core.take_succ_iff]
  constructor
  · intro h p hp id hid hselected
    obtain ⟨q, hq, hlisted⟩ := h id p hp (listed_iff.2 ⟨hselected, hid⟩)
    exact ⟨q, hq, (listed_iff.1 hlisted).2⟩
  · intro h id p hp hlisted
    obtain ⟨hselected, hid⟩ := listed_iff.1 hlisted
    obtain ⟨q, hq, hid'⟩ := h p hp id hid hselected
    exact ⟨q, hq, listed_iff.2 ⟨hselected, hid'⟩⟩

/-- a reconciliation is right exactly when none of the VMs it keeps is overdue -/
theorem rosterRight_iff {select : List String} {x : Tui × List SnapshotPayload} (h : RosterOf select x)
    {p : SnapshotPayload} (hp : p.ids.Nodup) :
    RosterRight select (p :: x.2) x.1 (reconcileWithSnapshot select x.1 p) ↔ NoneOverdue select (p :: x.2) := by
  have hafter := rosterOf_reconcile h hp
  have hids (id : VmId) : id ∈ (reconcileWithSnapshot select x.1 p).ids ↔
      ∃ q ∈ (p :: x.2).take (missingStreakDrop + 1), listed select id q = true := by
    rw [← Tui.age_isSome, hafter.age, Core.age_isSome]
  rw [← windows_agree_iff]
  constructor
  · intro hright id
    rw [← hids, exists_listed]
    exact hright.members id
  · intro hagree
    refine ⟨hafter.tidy.sorted, ?_, ?_, ?_⟩
    · intro id
      rw [hids, hagree, exists_listed]
    · intro vm hvm hid
      exact mem_reconcile_of_mem select hvm hid
    · rintro q ⟨⟩ id hold hid
      have hselected : selected select id = true := by
        obtain ⟨_, _, hlisted⟩ := (Core.age_isSome missingStreakDrop (listed select id) x.2).1 (by
          rw [← h.age, Tui.age_isSome]
          exact hold)
        exact (listed_iff.1 hlisted).1
      apply reconcile_restarts select h.tidy
      exact listed_iff.2 ⟨hselected, hid⟩

/-- in every run of the sampler the roster is right as long as no VM is overdue, and no longer -/
theorem roster_right_iff (select : List String) (es : List SamplerPass) (hd : ∀ e ∈ es, e.Distinct) :
    Core.Along (samplerHistory select) (RosterRightAt select) ({}, []) es ↔
      Core.Along (samplerHistory select) (NoneOverdueAt select) ({}, []) es := by
  have hall : Core.Along (samplerHistory select) (fun _ e => e.Distinct) ({}, []) es := Core.along_of_forall _ _ hd
  apply Core.along_iff_of_inv (RosterOf select) (fun _ _ h hc => rosterOf_step h hc) ?_ (rosterOf_initial select) hall
  intro x e h hc
  cases e with
  | polled elapsed p => exact rosterRight_iff h hc
  | paused => exact Iff.rfl
  | failed error => exact Iff.rfl

/-- two VMs, one of which is omitted twice and returns, with a failed poll and a pause in between -/
theorem roster_right_returned :
    let reply (elapsed : ℕ) (ids : List VmId) : SamplerPass :=
      .polled (fromSecs elapsed) ⟨ids.map fun id => { id, vcpuCount := 4, threadCount := elapsed }⟩
    Core.Along (samplerHistory ["vm"]) (RosterRightAt ["vm"]) ({}, [])
      [reply 1 ["vm-b", "vm-a", "db"], reply 2 ["vm-a"], .failed "D-Bus GetSnapshot", reply 3 ["vm-a"], .paused,
        reply 4 ["vm-b", "vm-a"], reply 5 ["vm-b", "vm-a"], reply 6 ["vm-b", "vm-a"]] := by
  intro reply
  exact (roster_right_iff ["vm"] _ (by decide +kernel)).2 (by decide +kernel)

/-- a VM that the latest three snapshots omit is still there -/
theorem roster_overdue :
    ¬ Core.Along (samplerHistory []) (RosterRightAt []) ({}, [])
      [.polled 0 ⟨[{ id := "vm" }]⟩, .polled 1 ⟨[]⟩, .polled 2 ⟨[]⟩, .polled 3 ⟨[]⟩] := by
  rintro ⟨-, -, -, hright, -⟩
  obtain ⟨-, p, hp, hid⟩ := (hright.members "vm").1 (by decide +kernel)
  revert p
  decide +kernel

end IoThreadController
