/-
The status events of one tick.

- `loop_spec`: what the loop over the fleet has emitted and added up.
- `fleetRate_none_iff`: a cell of the aggregate is empty when no VM has a rate for its window.
- `one_record_each_iff`: there is one record for each VM, in the place the settings say, exactly when the records are not
  sent to the main log, or there is no VM.
-/
import Mathlib.Data.String.Basic
import IoThreadController.Core.Keyed
import IoThreadController.Fleet.Inventory
import IoThreadController.Fleet.Tick
import IoThreadController.Model.Status

namespace IoThreadController

variable {E : ScalingEngine} {c : Controller E} {order : List VmId} (median : List ℚ → ℚ)

/-! ## The fleet -/

/-- the tracked VMs in id order -/
def fleetOf (c : Controller E) (order : List VmId) : List Instance :=
  (order.filterMap c.instances).insertionSort fun left right => left.id ≤ right.id

theorem mem_fleetOf (hk : c.Keyed) (ho : Enumerates order c.instances) {i : Instance} :
    i ∈ fleetOf c order ↔ c.instances i.id = some i := by
  unfold fleetOf
  rw [List.mem_insertionSort, List.mem_filterMap]
  constructor
  · rintro ⟨id, -, hi⟩
    rw [hk id i hi]
    exact hi
  · intro hi
    exact ⟨i.id, (ho.2 i.id).2 (by rw [hi]; rfl), hi⟩

theorem inventory_ids (hk : c.Keyed) (ho : Enumerates order c.instances) :
    (order.filterMap c.instances).map Instance.id = order := by
  have hid (id : VmId) (hmem : id ∈ order) : (c.instances id).map Instance.id = some id := by
    obtain ⟨i, hi⟩ := Option.isSome_iff_exists.1 ((ho.2 id).1 hmem)
    rw [hi, Option.map_some, hk id i hi]
  calc (order.filterMap c.instances).map Instance.id
      = order.filterMap fun id => (c.instances id).map Instance.id := List.map_filterMap
    _ = order.filterMap some := List.filterMap_congr hid
    _ = order := List.filterMap_some

theorem fleetOf_ids (hk : c.Keyed) (ho : Enumerates order c.instances) :
    ((fleetOf c order).map Instance.id).Perm order := by
  have hperm : (fleetOf c order).Perm (order.filterMap c.instances) := List.perm_insertionSort _ _
  have hids := hperm.map Instance.id
  rwa [inventory_ids hk ho] at hids

theorem fleetOf_sorted (hk : c.Keyed) (ho : Enumerates order c.instances) :
    ((fleetOf c order).map Instance.id).Pairwise (· < ·) := by
  have hnodup : ((order.filterMap c.instances).map Instance.id).Nodup := by
    rw [inventory_ids hk ho]
    exact ho.1
  exact Core.insertionSort_key_lt hnodup

theorem fleetOf_length (hk : c.Keyed) (ho : Enumerates order c.instances) : (fleetOf c order).length = order.length := by
  rw [← (fleetOf_ids hk ho).length_eq, List.length_map]

/-! ## The loop -/

/-- the rate of a fleet over a window: the saturating sum of the rates that there are, if there are any -/
def fleetRate (fleet : List Instance) (window : ℕ) : Option ℕ :=
  let rates := fleet.filterMap fun i => i.status.rolling.iopsOver window
  if rates = [] then none else some (min rates.sum u64Max)

theorem fleetRate_none_iff {fleet : List Instance} {window : ℕ} :
    fleetRate fleet window = none ↔ ∀ i ∈ fleet, i.status.rolling.iopsOver window = none := by
  unfold fleetRate
  rw [← List.filterMap_eq_nil_iff]
  dsimp only
  split_ifs with h
  · exact iff_of_true rfl h
  · exact iff_of_false not_false h

/-- the records of one VM: one in its place, and another one on the main log -/
def recordsOf (cfg : Config) (i : Instance) : List LogEvent :=
  (if cfg.enablePerVmStatusLine && cfg.enablePerVmMainLog then [emitInstanceStatusMain i (iopsWindows i.status)]
    else if cfg.enablePerVmStatusLine then [emitInstanceStatusFile median i (iopsWindows i.status)]
    else []) ++
  if cfg.enablePerVmMainLog then [emitInstanceStatusMain i (iopsWindows i.status)] else []

/-- the sum and the flag of a window after part of the fleet -/
def windowTotals (fleet : List Instance) (window : ℕ) : ℕ × Bool :=
  (min (fleet.filterMap fun i => i.status.rolling.iopsOver window).sum u64Max,
    decide ((fleet.filterMap fun i => i.status.rolling.iopsOver window) ≠ []))

theorem addRate_windowTotals (fleet : List Instance) (i : Instance) (window : ℕ) :
    addRate (windowTotals fleet window) (i.status.rolling.iopsOver window) = windowTotals (fleet ++ [i]) window := by
  unfold windowTotals addRate
  rw [List.filterMap_append]
  cases h : i.status.rolling.iopsOver window with
  | none => simp [h]
  | some value => simp [h, satAdd_min]

theorem loop_spec (cfg : Config) (fleet : List Instance) :
    fleet.foldl (emitInstanceStatus median cfg) ({}, []) =
      ({ threads := (fleet.map fun i => i.status.threadCount).sum, windows := statusWindows.map (windowTotals fleet) },
        fleet.flatMap (recordsOf median cfg)) := by
  induction fleet using List.reverseRecOn with
  | nil => rfl
  | append_singleton fleet i ih =>
    rw [List.foldl_append, ih, List.foldl_cons, List.foldl_nil]
    have hwindows : List.zipWith addRate (statusWindows.map (windowTotals fleet)) (iopsWindows i.status) =
        statusWindows.map (windowTotals (fleet ++ [i])) := by
      unfold iopsWindows
      rw [List.zipWith_map, List.zipWith_self]
      exact List.map_congr_left fun window _ => addRate_windowTotals fleet i window
    unfold emitInstanceStatus
    dsimp only
    rw [hwindows, List.map_append, List.sum_append, List.flatMap_append, List.append_assoc, List.flatMap_singleton,
      List.map_cons, List.map_nil, List.sum_singleton]
    rfl

/-- the aggregate record of a fleet -/
def fleetStatus (fleet : List Instance) : LogEvent :=
  aggregateStatus fleet.length (fleet.map fun i => i.status.threadCount).sum (statusWindows.map (fleetRate fleet))

/-- the cells that the aggregate line shows -/
theorem windowTotals_cell (fleet : List Instance) (window : ℕ) :
    ((fun (sum, has) => if has = true then some sum else none) ∘ windowTotals fleet) window = fleetRate fleet window := by
  unfold fleetRate windowTotals
  dsimp only [Function.comp_apply]
  by_cases h : (fleet.filterMap fun i => i.status.rolling.iopsOver window) = []
  · rw [if_neg (by simp [h]), if_pos h]
  · rw [if_pos (decide_eq_true h), if_neg h]

theorem emitStatusLines_eq (hk : c.Keyed) (ho : Enumerates order c.instances) :
    emitStatusLines median c order =
      (fleetOf c order).flatMap (recordsOf median c.cfg) ++
        if c.cfg.enableAggregateStatusLine then [fleetStatus (fleetOf c order)] else [] := by
  have hloop : ((order.filterMap c.instances).insertionSort fun left right => left.id ≤ right.id).foldl
      (emitInstanceStatus median c.cfg) ({}, []) = _ := loop_spec median c.cfg (fleetOf c order)
  unfold emitStatusLines
  dsimp only
  rw [hloop]
  dsimp only
  rw [List.map_map, List.map_congr_left fun window _ => windowTotals_cell (fleetOf c order) window,
    ← fleetOf_length hk ho]
  split_ifs with haggregate
  · rfl
  · exact (List.append_nil _).symm

/-! ## One record for each VM -/

/-- the record of a VM, in the place that the settings say -/
def vmRecord (cfg : Config) (i : Instance) : LogEvent :=
  if cfg.enablePerVmMainLog then emitInstanceStatusMain i (iopsWindows i.status)
  else emitInstanceStatusFile median i (iopsWindows i.status)

/-- one record for each tracked VM in id order, if the settings ask for them, and one for the fleet, if they ask for it;
a cell of the latter is a dash when no VM has a rate -/
def OneRecordEach (c : Controller E) (records : List LogEvent) : Prop :=
  ∃ fleet : List Instance, (fleet.map Instance.id).Pairwise (· < ·) ∧ (∀ i, i ∈ fleet ↔ c.instances i.id = some i) ∧
    records = (if c.cfg.enablePerVmStatusLine then fleet.map (vmRecord median c.cfg) else []) ++
      (if c.cfg.enableAggregateStatusLine then [fleetStatus fleet] else []) ∧
    ∀ window ∈ statusWindows, formatCell (fleetRate fleet window) = "-" ↔
      ∀ i ∈ fleet, i.status.rolling.iopsOver window = none

theorem formatCell_dash_iff {value : Option ℕ} : formatCell value = "-" ↔ value = none := by
  cases value with
  | none => exact iff_of_true rfl rfl
  | some n =>
    refine iff_of_false (fun h => ?_) (Option.some_ne_none n)
    have hdigits : (toString n).toList = Nat.toDigits 10 n := Nat.toList_repr
    have hdash : Nat.toDigits 10 n = ['-'] := hdigits.symm.trans (congrArg String.toList h)
    have hmem : '-' ∈ Nat.toDigits 10 n := by rw [hdash]; exact List.mem_singleton.2 rfl
    have hdigit : '-'.isDigit = true := Nat.isDigit_of_mem_toDigits (by decide) (by decide) hmem
    revert hdigit
    decide

theorem recordsOf_length {cfg : Config} (h : cfg.enablePerVmMainLog = true) (i : Instance) :
    (recordsOf median cfg i).length = if cfg.enablePerVmStatusLine then 2 else 1 := by
  unfold recordsOf
  rw [h]
  cases cfg.enablePerVmStatusLine <;> rfl

theorem recordsOf_file {cfg : Config} (h : cfg.enablePerVmMainLog = false) (i : Instance) :
    recordsOf median cfg i = if cfg.enablePerVmStatusLine then [vmRecord median cfg i] else [] := by
  unfold recordsOf vmRecord
  rw [h]
  cases cfg.enablePerVmStatusLine <;> rfl

theorem flatMap_recordsOf_file {cfg : Config} (h : cfg.enablePerVmMainLog = false) (fleet : List Instance) :
    fleet.flatMap (recordsOf median cfg) =
      if cfg.enablePerVmStatusLine then fleet.map (vmRecord median cfg) else [] := by
  have hrecords : recordsOf median cfg = fun i => if cfg.enablePerVmStatusLine then [vmRecord median cfg i] else [] :=
    funext (recordsOf_file median h)
  rw [hrecords]
  split_ifs
  · exact List.map_eq_flatMap.symm
  · exact List.flatMap_eq_nil_iff.2 fun i _ => rfl

/-- on the main log there is one record too many for each VM -/
theorem flatMap_recordsOf_length {cfg : Config} (h : cfg.enablePerVmMainLog = true) (fleet : List Instance) :
    (fleet.flatMap (recordsOf median cfg)).length =
      (if cfg.enablePerVmStatusLine then fleet.length else 0) + fleet.length := by
  induction fleet with
  | nil => simp
  | cons i fleet ih =>
    rw [List.flatMap_cons, List.length_append, ih, recordsOf_length median h, List.length_cons]
    split_ifs <;> omega

/-- two lists of the tracked VMs are equally long -/
theorem fleet_length (hk : c.Keyed) (ho : Enumerates order c.instances) {fleet : List Instance}
    (hsorted : (fleet.map Instance.id).Pairwise (· < ·)) (hmem : ∀ i, i ∈ fleet ↔ c.instances i.id = some i) :
    fleet.length = (fleetOf c order).length := by
  have hnodup {l : List Instance} (h : (l.map Instance.id).Pairwise (· < ·)) : l.Nodup :=
    List.Nodup.of_map Instance.id (h.imp fun hab => Std.ne_of_lt hab)
  refine ((List.perm_ext_iff_of_nodup (hnodup hsorted) (hnodup (fleetOf_sorted hk ho))).2 fun i => ?_).length_eq
  rw [hmem, mem_fleetOf hk ho]

/-- sent to the main log, the records of a tracked VM are one too many -/
theorem extra_record (hk : c.Keyed) (ho : Enumerates order c.instances) (hmain : c.cfg.enablePerVmMainLog = true)
    {id : VmId} (hid : (c.instances id).isSome) : ¬ OneRecordEach median c (emitStatusLines median c order) := by
  rw [emitStatusLines_eq median hk ho]
  rintro ⟨fleet, hsorted, hmem, hrecords, -⟩
  have hfleet := fleet_length hk ho hsorted hmem
  have hpos : 0 < (fleetOf c order).length := by
    obtain ⟨i, hi⟩ := Option.isSome_iff_exists.1 hid
    have hi' : i ∈ fleetOf c order := (mem_fleetOf hk ho).2 (by rw [hk id i hi]; exact hi)
    exact List.length_pos_of_mem hi'
  have haggregate (e e' : LogEvent) : (if c.cfg.enableAggregateStatusLine then [e] else []).length =
      (if c.cfg.enableAggregateStatusLine then [e'] else []).length := by split_ifs <;> rfl
  have hlength := congrArg List.length hrecords
  rw [List.length_append, List.length_append, flatMap_recordsOf_length median hmain,
    haggregate (fleetStatus (fleetOf c order)) (fleetStatus fleet)] at hlength
  have hper := Nat.add_right_cancel hlength
  split_ifs at hper with hline
  · rw [List.length_map] at hper
    omega
  · rw [List.length_nil] at hper
    omega

theorem one_record_each_iff (hk : c.Keyed) (ho : Enumerates order c.instances) :
    OneRecordEach median c (emitStatusLines median c order) ↔
      c.cfg.enablePerVmMainLog = false ∨ ∀ id, c.instances id = none := by
  constructor
  · intro h
    by_contra hcon
    obtain ⟨hmain, htracked⟩ := not_or.1 hcon
    obtain ⟨id, hid⟩ := not_forall.1 htracked
    exact extra_record median hk ho (Bool.eq_true_of_not_eq_false hmain) (Option.isSome_iff_ne_none.2 hid) h
  · intro h
    rw [emitStatusLines_eq median hk ho]
    refine ⟨fleetOf c order, fleetOf_sorted hk ho, fun i => mem_fleetOf hk ho, ?_, fun window _ =>
      formatCell_dash_iff.trans fleetRate_none_iff⟩
    rcases h with hmain | hnone
    · rw [flatMap_recordsOf_file median hmain]
    · have hempty : fleetOf c order = [] := by
        refine List.eq_nil_iff_forall_not_mem.2 fun i hi => ?_
        have hi' := (mem_fleetOf hk ho).1 hi
        rw [hnone] at hi'
        cases hi'
      rw [hempty]
      simp only [List.flatMap_nil, List.map_nil, ite_self]

/-! ## Two VMs -/

def twoVms (cfg : Config) : Controller (.stateless fun _ => ScaleAction.none) where
  cfg
  engine := ()
  instances id :=
    if id = "a" then some ⟨"a", 1, { threadCount := 2 }⟩
    else if id = "b" then some ⟨"b", 2, { threadCount := 4 }⟩
    else none

theorem twoVms_keyed (cfg : Config) : (twoVms cfg).Keyed := by
  intro id i h
  unfold twoVms at h
  dsimp only at h
  split_ifs at h with ha hb
  · cases h
    exact ha.symm
  · cases h
    exact hb.symm

theorem twoVms_enumerates (cfg : Config) : Enumerates ["b", "a"] (twoVms cfg).instances := by
  refine ⟨by decide, fun id => ?_⟩
  unfold twoVms
  dsimp only
  by_cases ha : id = "a"
  · simp [ha]
  · by_cases hb : id = "b"
    · simp [hb]
    · simp [ha, hb]

theorem one_record_each_two_vms :
    let median : List ℚ → ℚ := fun utils => utils.headD 0
    let c := twoVms { enablePerVmStatusLine := true }
    OneRecordEach median c (emitStatusLines median c ["b", "a"]) :=
  (one_record_each_iff _ (twoVms_keyed _) (twoVms_enumerates _)).2 (Or.inl rfl)

theorem main_log_records_doubled :
    let median : List ℚ → ℚ := fun utils => utils.headD 0
    let c := twoVms { enablePerVmStatusLine := true, enablePerVmMainLog := true }
    ¬ OneRecordEach median c (emitStatusLines median c ["b", "a"]) :=
  extra_record _ (twoVms_keyed _) (twoVms_enumerates _) rfl (show ((twoVms _).instances "a").isSome from rfl)

end IoThreadController
