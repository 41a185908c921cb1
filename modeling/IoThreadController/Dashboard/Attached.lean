/-
A dashboard attached to a daemon.

The history of a run has, for every reply that arrived, the fleet as it was when the daemon served the call, and the time
of arrival; the latest reply comes first. Between a call and its reply the daemon goes on, may end and start again, and
replies may be lost.

- `shows_snapshot`: a reply lists every tracked VM once, with its status.
- `recorded_plot`, `new_plot`: what one reply does to the plot of a VM.
- `dashboard_follows_fleet`: the roster has the selected VMs that were tracked at one of the latest four replies; the plot of
  each is an unbroken end of what these replies showed of it, with a mark wherever its thread count changed.
-/
import IoThreadController.Dashboard.Roster
import IoThreadController.Fleet.StatusLines
import IoThreadController.Model.Snapshot

namespace IoThreadController

/-! ## Plots -/

/-- the mark between two samples of different thread counts -/
def mark (a b : Sample) : Option Annot :=
  if a.threadCount ≠ b.threadCount then
    some { t := b.t, yValue := max b.iops b.bwMb, oldN := a.threadCount, newN := b.threadCount }
  else none

/-- the marks of a plot, between neighbours -/
def marks (samples : List Sample) : List Annot := (samples.zip samples.tail).filterMap fun p => mark p.1 p.2

theorem zip_tail_append {α : Type*} (l : List α) (a : α) :
    (l ++ [a]).zip (l ++ [a]).tail = l.zip l.tail ++ (l.getLast?.map fun b => (b, a)).toList := by
  induction l with
  | nil => rfl
  | cons b l ih =>
    cases l with
    | nil => rfl
    | cons c l =>
      simp only [List.cons_append, List.tail_cons, List.zip_cons_cons, List.getLast?_cons_cons] at ih ⊢
      rw [ih]

theorem marks_append (l : List Sample) (s : Sample) :
    marks (l ++ [s]) = marks l ++ (l.getLast?.bind fun b => mark b s).toList := by
  unfold marks
  rw [zip_tail_append, List.filterMap_append]
  cases l.getLast? with
  | none => rfl
  | some b => simp [List.filterMap_cons]; cases mark b s <;> rfl

/-- the marks of an end of a plot are the last of its marks -/
theorem marks_suffix {l l' : List Sample} (h : l <:+ l') : marks l <:+ marks l' := by
  obtain ⟨front, rfl⟩ := h
  induction front with
  | nil => exact List.suffix_rfl
  | cons a front ih =>
    refine ih.trans ?_
    cases hrest : front ++ l with
    | nil => exact List.nil_suffix
    | cons b rest =>
      have hcons : marks (a :: b :: rest) = (mark a b).toList ++ marks (b :: rest) := by
        simp [marks, List.filterMap_cons]; cases mark a b <;> rfl
      rw [List.cons_append, hrest, hcons]
      exact List.suffix_append _ _

theorem marks_length (l : List Sample) : (marks l).length ≤ l.length :=
  (List.length_filterMap_le _ _).trans (by simp)

theorem pushBounded_suffix {α : Type} {ring l : List α} (h : ring <:+ l) (a : α) : pushBounded ring a <:+ l ++ [a] := by
  obtain ⟨front, rfl⟩ := h
  refine (List.drop_suffix _ _).trans ⟨front, ?_⟩
  rw [List.append_assoc]

theorem pushBounded_length {α : Type} (ring : List α) (a : α) :
    (pushBounded ring a).length = min (ring.length + 1) maxHistory := by
  unfold pushBounded
  rw [List.length_drop, List.length_append, List.length_singleton]
  omega

/-- what fits a bounded ring is not dropped from it -/
theorem suffix_pushBounded {α : Type} {l ring : List α} {a : α} (h : l <:+ ring ++ [a]) (hlen : l.length ≤ maxHistory) :
    l <:+ pushBounded ring a := by
  have hle := h.length_le
  rw [List.length_append, List.length_singleton] at hle
  have hring := pushBounded_length ring a
  exact List.suffix_of_suffix_length_le h (List.drop_suffix _ _) (by omega)

theorem pushBounded_ne_nil {α : Type} (ring : List α) (a : α) : pushBounded ring a ≠ [] := by
  have hlength := pushBounded_length ring a
  have hpos : 0 < maxHistory := by norm_num [maxHistory]
  intro hnil
  rw [hnil, List.length_nil] at hlength
  omega

/-- what the plot of a VM shows of all that the daemon has shown of it -/
structure Plot (shown : List Sample) (vm : VmState) : Prop where
  samples : vm.samples <:+ shown
  nonempty : vm.samples ≠ []
  marked : marks vm.samples <:+ vm.annots
  marks : vm.annots <:+ marks shown
  last : vm.lastThreadCount = shown.getLast?.map Sample.threadCount

theorem record_samples (vm : VmState) (t : ℚ) (d : SnapshotVm) :
    (vm.record t d).samples = pushBounded vm.samples (snapshotToSample d t) := by
  simp only [VmState.record]

theorem marks_pushBounded (l : List Sample) (s : Sample) :
    marks (pushBounded l s) <:+ marks l ++ (l.getLast?.bind fun b => mark b s).toList := by
  rw [← marks_append]
  exact marks_suffix (pushBounded_suffix List.suffix_rfl s)

theorem marks_pushBounded_length (l : List Sample) (s : Sample) : (marks (pushBounded l s)).length ≤ maxHistory := by
  calc (marks (pushBounded l s)).length
      ≤ (pushBounded l s).length := marks_length _
    _ = min (l.length + 1) maxHistory := pushBounded_length l s
    _ ≤ maxHistory := min_le_right _ _

/-- a reply that shows the VM adds its sample to the plot, and a mark if the thread count has changed -/
theorem recorded_plot {shown : List Sample} {vm : VmState} (h : Plot shown vm) (t : ℚ) (d : SnapshotVm) :
    Plot (shown ++ [snapshotToSample d t]) (vm.record t d) := by
  have hannots : (vm.record t d).annots =
      (shown.getLast?.bind fun b => mark b (snapshotToSample d t)).elim vm.annots (pushBounded vm.annots) := by
    have hmark : (vm.lastThreadCount.bind fun prev =>
        if prev ≠ d.threadCount then
          some { t, yValue := max (snapshotToSample d t).iops (snapshotToSample d t).bwMb, oldN := prev,
                 newN := d.threadCount : Annot }
        else none) = shown.getLast?.bind fun b => mark b (snapshotToSample d t) := by
      rw [h.last, Option.bind_map]
      rfl
    unfold VmState.record
    dsimp only
    rw [hmark]
  -- the plot ends with the latest sample shown
  have hlast : vm.samples.getLast? = shown.getLast? := by
    obtain ⟨front, hfront⟩ := h.samples
    rw [← hfront, List.getLast?_append_of_ne_nil _ h.nonempty]
  have hnew := marks_pushBounded vm.samples (snapshotToSample d t)
  rw [hlast] at hnew
  refine ⟨?_, ?_, ?_, ?_, by simp [VmState.record, snapshotToSample]⟩
  · rw [record_samples]
    exact pushBounded_suffix h.samples _
  · rw [record_samples]
    exact pushBounded_ne_nil _ _
  · rw [hannots, record_samples]
    cases hlatest : shown.getLast?.bind fun b => mark b (snapshotToSample d t) with
    | none =>
      rw [hlatest, Option.toList_none, List.append_nil] at hnew
      rw [Option.elim_none]
      exact hnew.trans h.marked
    | some a =>
      rw [hlatest, Option.toList_some] at hnew
      rw [Option.elim_some]
      obtain ⟨front, hfront⟩ := h.marked
      have hmarked : marks vm.samples ++ [a] <:+ vm.annots ++ [a] := ⟨front, by rw [← hfront, List.append_assoc]⟩
      exact suffix_pushBounded (hnew.trans hmarked) (marks_pushBounded_length _ _)
  · rw [hannots, marks_append]
    cases shown.getLast?.bind fun b => mark b (snapshotToSample d t) with
    | none => simpa using h.marks
    | some a =>
      rw [Option.elim_some, Option.toList_some]
      exact pushBounded_suffix h.marks a

/-- the first reply that shows a VM starts its plot -/
theorem new_plot (shown : List Sample) (id : VmId) (colorIdx : ℕ) (t : ℚ) (d : SnapshotVm) :
    Plot (shown ++ [snapshotToSample d t]) ((VmState.new id colorIdx).record t d) := by
  have hannots : ((VmState.new id colorIdx).record t d).annots = [] := by
    simp [VmState.record, VmState.new]
  refine ⟨?_, ?_, ?_, ?_, by simp [VmState.record, snapshotToSample]⟩
  · have hnew : (VmState.new id colorIdx).samples <:+ shown := List.nil_suffix
    rw [record_samples]
    exact pushBounded_suffix hnew _
  · rw [record_samples]
    exact pushBounded_ne_nil _ _
  · rw [hannots, record_samples]
    exact marks_pushBounded (VmState.new id colorIdx).samples (snapshotToSample d t)
  · rw [hannots]
    exact List.nil_suffix

/-! ## Replies -/

section
variable (median : List ℚ → ℚ) {E : ScalingEngine}

/-- the reply lists every tracked VM once, with its status -/
structure Shows (p : SnapshotPayload) (c : Controller E) : Prop where
  nodup : p.ids.Nodup
  vms : ∀ d, d ∈ p.vms ↔ ∃ i, c.instances d.id = some i ∧ d = (snapshotEntry median d.id i.status).vm

theorem shows_snapshot {c : Controller E} {order : List VmId} (ho : Enumerates order c.instances) :
    Shows median ⟨(c.handleGetSnapshot median order).map SnapshotEntry.vm⟩ c := by
  have hvms : (c.handleGetSnapshot median order).map SnapshotEntry.vm =
      order.filterMap fun id => (c.instances id).map fun i => (snapshotEntry median id i.status).vm := by
    rw [Controller.handleGetSnapshot, List.map_filterMap]
    simp only [Option.map_map]
    rfl
  refine ⟨?_, fun d => ?_⟩
  · have hids : SnapshotPayload.ids ⟨(c.handleGetSnapshot median order).map SnapshotEntry.vm⟩ =
        order.filterMap fun id => (c.instances id).map fun _ => id := by
      rw [SnapshotPayload.ids, hvms, List.map_filterMap]
      simp only [Option.map_map]
      rfl
    rw [hids]
    refine ho.1.filterMap fun id id' x hx hx' => ?_
    obtain ⟨-, -, rfl⟩ := Option.map_eq_some_iff.1 hx
    obtain ⟨-, -, rfl⟩ := Option.map_eq_some_iff.1 hx'
    rfl
  · rw [hvms, List.mem_filterMap]
    constructor
    · rintro ⟨id, -, hd⟩
      obtain ⟨i, hi, rfl⟩ := Option.map_eq_some_iff.1 hd
      exact ⟨i, hi, rfl⟩
    · rintro ⟨i, hi, hd⟩
      exact ⟨d.id, (ho.2 d.id).2 (by rw [hi]; rfl), by rw [hi, Option.map_some, ← hd]⟩

variable {median}

theorem Shows.mem_ids {p : SnapshotPayload} {c : Controller E} (h : Shows median p c) {id : VmId} :
    id ∈ p.ids ↔ (c.instances id).isSome = true := by
  rw [SnapshotPayload.ids, List.mem_map]
  constructor
  · rintro ⟨d, hd, rfl⟩
    obtain ⟨i, hi, -⟩ := (h.vms d).1 hd
    rw [hi]
    rfl
  · intro hsome
    obtain ⟨i, hi⟩ := Option.isSome_iff_exists.1 hsome
    exact ⟨(snapshotEntry median id i.status).vm, (h.vms _).2 ⟨i, hi, rfl⟩, rfl⟩

/-- the entry that the sampler finds for a VM is the VM's status -/
theorem Shows.find {p : SnapshotPayload} {c : Controller E} (h : Shows median p c) (id : VmId) :
    (p.vms.reverse.find? fun d => d.id = id) =
      (c.instances id).map fun i => (snapshotEntry median id i.status).vm := by
  have hnodup : (p.vms.reverse.map SnapshotVm.id).Nodup := by
    rw [List.map_reverse, List.nodup_reverse]
    exact h.nodup
  refine Option.ext fun d => ?_
  rw [Core.find?_key_iff hnodup, List.mem_reverse, h.vms, Option.map_eq_some_iff]
  constructor
  · rintro ⟨⟨i, hi, hd⟩, rfl⟩
    exact ⟨i, hi, hd.symm⟩
  · rintro ⟨i, hi, rfl⟩
    exact ⟨⟨i, hi, rfl⟩, rfl⟩

end

/-! ## Runs -/

section
variable {E : ScalingEngine}

/-- the fleet that the reply on its way shows, and those of the replies that have arrived, with the times of arrival -/
abbrev Served (E : ScalingEngine) := Option (Controller E) × List (Controller E × ℕ)

def noteServed (s : Attached E) : AttachedEvent E → Served E → Served E
  | .serve _, (pending, arrived) => (s.daemon.or pending, arrived)
  | .receive elapsed, (some c, arrived) => (none, (c, elapsed) :: arrived)
  | .receive _, (none, arrived) => (none, arrived)
  | .fail _, (_, arrived) => (none, arrived)
  | .daemon _, served | .start .., served | .paused, served => served

/-- the order in which a served call meets the instances is one of their map -/
def AttachedEvent.Ordered (s : Attached E) : AttachedEvent E → Prop
  | .serve order => ∀ c ∈ s.daemon, Enumerates order c.instances
  | .daemon _ | .start .. | .receive _ | .fail _ | .paused => True

/-- the daemon tracked the VM -/
def tracks (id : VmId) (p : Controller E × ℕ) : Bool := (p.1.instances id).isSome

variable (median : List ℚ → ℚ) (select : List String)

def attachedHistory : Attached E × Served E → AttachedEvent E → Attached E × Served E :=
  Core.withHistory (Attached.step median select) noteServed

/-- what the replies have shown of a VM, from the first one on -/
def shownSamples (arrived : List (Controller E × ℕ)) (id : VmId) : List Sample :=
  arrived.reverse.filterMap fun p =>
    (p.1.instances id).map fun i => snapshotToSample (snapshotEntry median id i.status).vm (asSecs p.2)

/-- the latest replies that all showed the VM -/
def latestShown (arrived : List (Controller E × ℕ)) (id : VmId) : ℕ := (arrived.takeWhile (tracks id)).length

/-- the plots follow the replies, and miss none of the latest ones -/
structure Follows (arrived : List (Controller E × ℕ)) (tui : Tui) : Prop where
  plot : ∀ vm ∈ tui.vms, Plot (shownSamples median arrived vm.id) vm
  unbroken : ∀ vm ∈ tui.vms, min (latestShown arrived vm.id) maxHistory ≤ vm.samples.length

/-- the dashboard is where the replies have brought it -/
structure InStep (x : Attached E × Served E) : Prop where
  pending : x.1.reply = none ∧ x.2.1 = none ∨ ∃ p c, x.1.reply = some p ∧ x.2.1 = some c ∧ Shows median p c
  roster : ∃ payloads, RosterOf select (x.1.tui, payloads) ∧
    List.Forall₂ (fun p (e : Controller E × ℕ) => Shows median p e.1) payloads x.2.2
  follows : Follows median x.2.2 x.1.tui

variable {median} {select}

/-- what one reply does to the plots -/
theorem follows_receive {tui : Tui} {arrived : List (Controller E × ℕ)} {p : SnapshotPayload} {c : Controller E}
    (elapsed : ℕ) (h : Follows median arrived tui) (hshows : Shows median p c)
    (hnew : ∀ id, id ∉ tui.ids → selected select id = true → latestShown arrived id = 0) :
    Follows median ((c, elapsed) :: arrived)
      (recordSamples (reconcileWithSnapshot select tui p) (asSecs elapsed) p) := by
  -- a VM of the roster before the samples: old or new
  have hcases : ∀ vm ∈ (reconcileWithSnapshot select tui p).vms,
      vm ∈ tui.vms ∨ vm.id ∉ tui.ids ∧ listed select vm.id p = true ∧ ∃ colorIdx, vm = VmState.new vm.id colorIdx := by
    intro vm hvm
    rw [reconcile_eq] at hvm
    exact mem_grown_cases select _ _ (List.mem_of_mem_filter hvm)
  have hshown : ∀ id, shownSamples median ((c, elapsed) :: arrived) id = shownSamples median arrived id ++
      ((c.instances id).map fun i => snapshotToSample (snapshotEntry median id i.status).vm (asSecs elapsed)).toList := by
    intro id
    unfold shownSamples
    rw [List.reverse_cons, List.filterMap_append]
    cases hi : c.instances id <;> simp [hi]
  have hlatest : ∀ id, latestShown ((c, elapsed) :: arrived) id =
      if (c.instances id).isSome then latestShown arrived id + 1 else 0 := by
    intro id
    unfold latestShown
    rw [List.takeWhile_cons]
    cases hi : c.instances id <;> simp [tracks, hi]
  have hboth : ∀ vm ∈ (recordSamples (reconcileWithSnapshot select tui p) (asSecs elapsed) p).vms,
      Plot (shownSamples median ((c, elapsed) :: arrived) vm.id) vm ∧
        min (latestShown ((c, elapsed) :: arrived) vm.id) maxHistory ≤ vm.samples.length := by
    intro vm' hvm'
    unfold recordSamples at hvm'
    obtain ⟨vm, hvm, hrecord⟩ := List.mem_map.1 hvm'
    rw [hshows.find] at hrecord
    cases hi : c.instances vm.id with
    | none =>
      -- not in the reply: only a VM of the old roster, as it was
      rw [hi, Option.map_none] at hrecord
      subst hrecord
      have hold : vm ∈ tui.vms := by
        rcases hcases vm hvm with hold | ⟨-, hlisted, -⟩
        · exact hold
        · have hmem := hshows.mem_ids.1 (listed_iff.1 hlisted).2
          rw [hi] at hmem
          cases hmem
      rw [hshown, hlatest, hi]
      simpa using h.plot vm hold
    | some i =>
      rw [hi, Option.map_some] at hrecord
      subst hrecord
      have hid : (vm.record (asSecs elapsed) (snapshotEntry median vm.id i.status).vm).id = vm.id := by
        simp only [VmState.record]
      rw [hid, hshown, hlatest, hi, record_samples, pushBounded_length]
      simp only [Option.map_some, Option.toList_some, Option.isSome_some, if_true]
      rcases hcases vm hvm with hold | ⟨hnone, hlisted, colorIdx, hvmnew⟩
      · refine ⟨recorded_plot (h.plot vm hold) _ _, ?_⟩
        have hle := h.unbroken vm hold
        omega
      · refine ⟨?_, ?_⟩
        · rw [hvmnew]
          exact new_plot _ _ _ _ _
        · rw [hnew vm.id hnone (listed_iff.1 hlisted).1]
          omega
  exact ⟨fun vm hvm => (hboth vm hvm).1, fun vm hvm => (hboth vm hvm).2⟩

theorem exists_mem_congr {α β : Type*} {R : α → β → Prop} {l : List α} {l' : List β} (h : List.Forall₂ R l l')
    {P : α → Prop} {Q : β → Prop} (hPQ : ∀ a b, R a b → (P a ↔ Q b)) : (∃ a ∈ l, P a) ↔ ∃ b ∈ l', Q b := by
  induction h with
  | nil => simp
  | cons hab _ ih => simp [hPQ _ _ hab, ih]

/-- a selected VM that the latest reply showed is on the roster -/
theorem latestShown_eq_zero {tui : Tui} {payloads : List SnapshotPayload} {arrived : List (Controller E × ℕ)}
    (hr : RosterOf select (tui, payloads))
    (hs : List.Forall₂ (fun p (e : Controller E × ℕ) => Shows median p e.1) payloads arrived) {id : VmId}
    (hid : id ∉ tui.ids) (hselected : selected select id = true) : latestShown arrived id = 0 := by
  cases hs with
  | nil => rfl
  | @cons p e payloads arrived hshows _ =>
    have htracks : tracks id e = false := by
      rw [Bool.eq_false_iff]
      intro htracks
      apply hid
      have hlisted : listed select id p = true := listed_iff.2 ⟨hselected, hshows.mem_ids.2 htracks⟩
      rw [← Tui.age_isSome, hr.age, Core.age_isSome]
      exact ⟨p, by simp, hlisted⟩
    simp [latestShown, htracks]

theorem attached_step {x : Attached E × Served E} {e : AttachedEvent E} (h : InStep median select x)
    (ho : e.Ordered x.1) : InStep median select (attachedHistory median select x e) := by
  obtain ⟨⟨daemon, reply, tui⟩, pending, arrived⟩ := x
  obtain ⟨payloads, hroster, hserved⟩ := h.roster
  cases e with
  | daemon event => exact ⟨h.pending, h.roster, h.follows⟩
  | start cfg engine vmOwnership => exact ⟨h.pending, h.roster, h.follows⟩
  | paused => exact ⟨h.pending, h.roster, h.follows⟩
  | fail error =>
    refine ⟨Or.inl ⟨rfl, rfl⟩, ⟨payloads, ?_, hserved⟩, ⟨h.follows.plot, h.follows.unbroken⟩⟩
    exact ⟨⟨hroster.tidy.sorted, hroster.tidy.streak⟩, hroster.age⟩
  | serve order =>
    cases daemon with
    | none => exact ⟨h.pending, h.roster, h.follows⟩
    | some c => exact ⟨Or.inr ⟨_, c, rfl, rfl, shows_snapshot median (ho c rfl)⟩, h.roster, h.follows⟩
  | receive elapsed =>
    rcases h.pending with ⟨hreply, hpending⟩ | ⟨p, c, hreply, hpending, hshows⟩
    · dsimp only at hreply hpending
      subst hreply hpending
      exact ⟨Or.inl ⟨rfl, rfl⟩, h.roster, h.follows⟩
    · dsimp only at hreply hpending
      subst hreply hpending
      refine ⟨Or.inl ⟨rfl, rfl⟩, ⟨p :: payloads, ?_, .cons hshows hserved⟩, ?_⟩
      · exact rosterOf_step (e := .polled elapsed p) hroster hshows.nodup
      · refine follows_receive elapsed ⟨h.follows.plot, h.follows.unbroken⟩ hshows fun id hid hselected => ?_
        exact latestShown_eq_zero hroster hserved hid hselected

theorem inStep_initial (daemon : Option (Controller E)) : InStep median select ({ daemon }, none, []) := by
  refine ⟨Or.inl ⟨rfl, rfl⟩, ⟨[], rosterOf_initial select, .nil⟩, ?_, ?_⟩ <;>
  · intro vm hvm
    cases hvm

/-- in every run the roster has, in id order, the selected VMs that the daemon tracked when it served one of the latest
four replies; the plot of each is an end of what the replies have shown of it, none of the latest ones missing, with a mark
at every change of its thread count -/
theorem dashboard_follows_fleet (median : List ℚ → ℚ) (select : List String) (daemon : Option (Controller E))
    (events : List (AttachedEvent E))
    (ho : Core.Along (attachedHistory median select) (fun x e => e.Ordered x.1) ({ daemon }, none, []) events) :
    let x := Core.run (attachedHistory median select) ({ daemon }, none, []) events
    x.1.tui.ids.Pairwise (· < ·) ∧
      (∀ id, id ∈ x.1.tui.ids ↔ selected select id = true ∧ ∃ p ∈ x.2.2.take (missingStreakDrop + 1), tracks id p = true) ∧
      Follows median x.2.2 x.1.tui := by
  intro x
  have hrun : InStep median select x :=
    Core.run_inv (InStep median select) (fun _ _ h hc => attached_step h hc) (inStep_initial daemon) ho
  obtain ⟨payloads, hroster, hserved⟩ := hrun.roster
  refine ⟨hroster.tidy.sorted, fun id => ?_, hrun.follows⟩
  rw [← Tui.age_isSome, hroster.age, Core.age_isSome, exists_listed]
  apply and_congr_right
  intro _
  exact exists_mem_congr (List.forall₂_take (missingStreakDrop + 1) hserved) fun _ _ hshows => hshows.mem_ids

/-- two VMs, of which the dashboard learns by one reply, on whose way the daemon goes on -/
theorem dashboard_follows_two_vms :
    let median : List ℚ → ℚ := fun utils => utils.headD 0
    let x := Core.run (attachedHistory median []) ({ daemon := some (twoVms {}) }, none, [])
      [.serve ["b", "a"], .daemon .query, .receive (fromSecs 1)]
    "a" ∈ x.1.tui.ids ∧ "c" ∉ x.1.tui.ids ∧ Follows median x.2.2 x.1.tui := by
  intro median x
  have hordered : Core.Along (attachedHistory median []) (fun x e => e.Ordered x.1)
      ({ daemon := some (twoVms {}) }, none, []) [.serve ["b", "a"], .daemon .query, .receive (fromSecs 1)] := by
    refine ⟨fun c hc => ?_, trivial, trivial, trivial⟩
    cases hc
    exact twoVms_enumerates {}
  obtain ⟨-, hmembers, hfollows⟩ := dashboard_follows_fleet median [] (some (twoVms {})) _ hordered
  have harrived : x.2.2 = [(twoVms {}, fromSecs 1)] := rfl
  refine ⟨(hmembers "a").2 ⟨rfl, (twoVms {}, fromSecs 1), ?_, rfl⟩, fun hc => ?_, hfollows⟩
  · change _ ∈ x.2.2.take _
    rw [harrived]
    simp
  · obtain ⟨-, p, hp, htracks⟩ := (hmembers "c").1 hc
    change p ∈ x.2.2.take _ at hp
    rw [harrived] at hp
    have hp' : p = (twoVms {}, fromSecs 1) := by simpa using hp
    rw [hp'] at htracks
    cases htracks

end

end IoThreadController
