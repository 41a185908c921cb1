/-
What the topology parser makes of a whole metrics text.

- `readLine_eq`: a line changes the state by what it reads, and what it reads does not depend on the state.
- `applyReading_comm`: readings of different things can be applied in either order.
- `depths_indexed_iff`: the depths stand at their queues' positions exactly when the text leaves no queue of the managed
  device out below another one that it reports.
- `topology_of_lines`: with one reading for each thing that can be read, neither the order of the lines nor unrelated
  lines matter.
-/
import IoThreadController.Core.Run
import IoThreadController.Core.SortedMap
import IoThreadController.Model.Topology

namespace IoThreadController

open Std (ExtTreeMap)
open IoThreadController.Core (run run_append run_cons run_nil run_inv run_latest along_true getElem?_insert_eq
  insert_comm insert_insert values_indexed_iff)

/-! ## Readings -/

/-- what a line says -/
inductive Reading where
  | depth (device : String) (vq depth : ℕ)
  | thread (id : String) (tid : ℤ)
  | queues (path : String) (count : ℕ)
  deriving DecidableEq

/-- what a reading is about -/
inductive Slot where
  | depth (device : String) (vq : ℕ)
  | thread (id : String)
  | queues
  deriving DecidableEq

namespace Reading

def slot : Reading → Slot
  | .depth device vq _ => .depth device vq
  | .thread id _ => .thread id
  | .queues _ _ => .queues

/-- the depth read for one queue of one device -/
def depthOf (device : String) (vq : ℕ) : Reading → Option ℕ
  | .depth device' vq' n => if device' = device ∧ vq' = vq then some n else none
  | _ => none

/-- the task id read for one IOThread -/
def tidOf (id : String) : Reading → Option ℤ
  | .thread id' tid => if id' = id then some tid else none
  | _ => none

/-- the device read, with its number of queues -/
def deviceOf : Reading → Option (String × ℕ)
  | .queues path count => some (path, count)
  | _ => none

end Reading

def depthReading (labels number : List Char) : Option Reading :=
  let lbls := parseQemuLabels labels
  match lbls["device"]?, lbls["vq"]?.bind fun vq => parseUsize vq.toList, parseF64 number with
  | some device, some vq, some depth => some (.depth device vq (asU64 ⌊max depth 0⌋))
  | _, _, _ => none

def threadReading (labels : List Char) : Option Reading :=
  let lbls := parseQemuLabels labels
  match lbls["id"]? with
  | none => none
  | some id =>
    if id = "" ∨ isManagedIotId id = false then none
    else (parseI32 ((lbls["tid"]?.or lbls["thread_id"]?).getD "").toList).map (.thread id)

def queuesReading (labels number : List Char) : Option Reading :=
  let lbls := parseQemuLabels labels
  let path := (lbls["device"]?.or lbls["path"]?).getD ""
  if path = "" then none else (parseF64 number).map fun v => .queues path (asU16 v)

/-- comments and unrelated lines read nothing, nor do lines whose labels or number are not usable -/
def reading (line : List Char) : Option Reading :=
  if line.head? = some '#' then none
  else
    match captures virtioScsiVqInflight line with
    | some (labels, number) => depthReading labels number
    | none =>
      match captures iothreadInfo line with
      | some (labels, _) => threadReading labels
      | none => (captures virtioScsiNumQueues line).bind fun (labels, number) => queuesReading labels number

/-- the readings of a whole text -/
def readings (body : String) : List Reading := (lines body).filterMap reading

/-- a reading changes the state; the first device stays the managed one -/
def applyReading (state : QemuTopology × Inflight) : Reading → QemuTopology × Inflight
  | .depth device vq n => (state.1, state.2.insert device ((state.2[device]?.getD ∅).insert vq n))
  | .thread id tid => ({ state.1 with iothreadTids := state.1.iothreadTids.insert id tid }, state.2)
  | .queues path count =>
    if state.1.devicePath ≠ "" then state else ({ state.1 with devicePath := path, vqCount := count }, state.2)

theorem readInflight_eq (topo : QemuTopology) (inflight : Inflight) (labels number : List Char) :
    (topo, QemuTopology.readInflight inflight labels number) =
      (depthReading labels number).elim (topo, inflight) (applyReading (topo, inflight)) := by
  unfold QemuTopology.readInflight depthReading
  dsimp only
  cases (parseQemuLabels labels)["device"]? <;>
    cases ((parseQemuLabels labels)["vq"]?.bind fun vq => parseUsize vq.toList) <;> cases parseF64 number <;> rfl

theorem readIothread_eq (topo : QemuTopology) (inflight : Inflight) (labels : List Char) :
    (topo.readIothread labels, inflight) =
      (threadReading labels).elim (topo, inflight) (applyReading (topo, inflight)) := by
  unfold QemuTopology.readIothread threadReading
  dsimp only
  cases (parseQemuLabels labels)["id"]? with
  | none => rfl
  | some id =>
    dsimp only
    split_ifs with h
    · rfl
    · cases parseI32 _ <;> rfl

theorem readNumQueues_eq (topo : QemuTopology) (inflight : Inflight) (labels number : List Char)
    (h : topo.devicePath = "") : (topo.readNumQueues labels number, inflight) =
      (queuesReading labels number).elim (topo, inflight) (applyReading (topo, inflight)) := by
  unfold QemuTopology.readNumQueues queuesReading
  dsimp only
  split_ifs with hpath
  · rfl
  · cases parseF64 number with
    | none => rfl
    | some v => exact (if_neg (not_not.2 h)).symm

theorem queuesReading_apply (topo : QemuTopology) (inflight : Inflight) (labels number : List Char)
    (h : topo.devicePath ≠ "") :
    (queuesReading labels number).elim (topo, inflight) (applyReading (topo, inflight)) = (topo, inflight) := by
  unfold queuesReading
  dsimp only
  split_ifs with hpath
  · rfl
  · cases parseF64 number with
    | none => rfl
    | some v => exact if_pos h

theorem readLine_eq (state : QemuTopology × Inflight) (line : List Char) :
    QemuTopology.readLine state line = (reading line).elim state (applyReading state) := by
  obtain ⟨topo, inflight⟩ := state
  unfold QemuTopology.readLine reading
  dsimp only
  by_cases hcomment : line.head? = some '#'
  · simp only [if_pos hcomment, Option.elim_none]
  simp only [if_neg hcomment]
  cases captures virtioScsiVqInflight line with
  | some m => exact readInflight_eq topo inflight m.1 m.2
  | none =>
    cases captures iothreadInfo line with
    | some m => exact readIothread_eq topo inflight m.1
    | none =>
      cases captures virtioScsiNumQueues line with
      | none => exact ite_self _
      | some m =>
        by_cases hdevice : topo.devicePath = ""
        · exact (if_neg (not_not.2 hdevice)).trans (readNumQueues_eq topo inflight m.1 m.2 hdevice)
        · exact (if_pos hdevice).trans (queuesReading_apply topo inflight m.1 m.2 hdevice).symm

theorem foldl_readLine (state : QemuTopology × Inflight) (ls : List (List Char)) :
    ls.foldl QemuTopology.readLine state = run applyReading state (ls.filterMap reading) := by
  induction ls generalizing state with
  | nil => rfl
  | cons line ls ih =>
    rw [List.foldl_cons, readLine_eq, ih]
    cases h : reading line with
    | none => rw [List.filterMap_cons_none h]; rfl
    | some r => rw [List.filterMap_cons_some h]; rfl

/-- the state after the loop -/
def loopState (body : String) : QemuTopology × Inflight := run applyReading ({}, ∅) (readings body)

theorem new_eq (body : String) : QemuTopology.new body = QemuTopology.finish (loopState body) :=
  congrArg QemuTopology.finish (foldl_readLine _ _)

/-! ## What the text reports -/

/-- the device of the first usable queue-count line, and its number of queues -/
def managedDevice (body : String) : String × ℕ := ((readings body).filterMap Reading.deviceOf).head?.getD ("", 0)

/-- the depth that the last usable line for a queue of a device reports -/
def reportedDepth (body device : String) (vq : ℕ) : Option ℕ :=
  ((readings body).filterMap (Reading.depthOf device vq)).getLast?

/-- the task id that the last usable line for a managed IOThread reports -/
def reportedTid (body id : String) : Option ℤ := ((readings body).filterMap (Reading.tidOf id)).getLast?

/-- the depths read for one device, by queue -/
def depthsOf (state : QemuTopology × Inflight) (device : String) : ExtTreeMap ℕ ℕ := state.2[device]?.getD ∅

theorem depthsOf_apply (device : String) (vq : ℕ) (state : QemuTopology × Inflight) (r : Reading) :
    (depthsOf (applyReading state r) device)[vq]? = (r.depthOf device vq).or (depthsOf state device)[vq]? := by
  cases r with
  | depth device' vq' n =>
    unfold depthsOf applyReading Reading.depthOf
    dsimp only
    rw [getElem?_insert_eq]
    by_cases hdevice : device' = device
    · subst hdevice
      rw [if_pos rfl, Option.getD_some, getElem?_insert_eq]
      by_cases hvq : vq' = vq
      · rw [if_pos hvq, if_pos ⟨rfl, hvq⟩, Option.some_or]
      · rw [if_neg hvq, if_neg fun h => hvq h.2, Option.none_or]
    · rw [if_neg hdevice, if_neg fun h => hdevice h.1, Option.none_or]
  | thread id tid => rfl
  | queues path count =>
    unfold applyReading
    split_ifs <;> rfl

theorem iothreadTids_apply (id : String) (state : QemuTopology × Inflight) (r : Reading) :
    (applyReading state r).1.iothreadTids[id]? = (r.tidOf id).or state.1.iothreadTids[id]? := by
  cases r with
  | depth device vq n => rfl
  | thread id' tid =>
    unfold applyReading Reading.tidOf
    dsimp only
    rw [getElem?_insert_eq]
    split_ifs <;> rfl
  | queues path count =>
    unfold applyReading
    split_ifs <;> rfl

theorem depthsOf_run (body device : String) (vq : ℕ) :
    (depthsOf (loopState body) device)[vq]? = reportedDepth body device vq :=
  (run_latest (fun state => (depthsOf state device)[vq]?) (Reading.depthOf device vq)
    (depthsOf_apply device vq) _ _).trans Option.or_none

theorem iothreadTids_run (body id : String) :
    (loopState body).1.iothreadTids[id]? = reportedTid body id :=
  (run_latest (fun state : QemuTopology × Inflight => state.1.iothreadTids[id]?) (Reading.tidOf id)
    (iothreadTids_apply id) _ _).trans Option.or_none

/-- readings name managed IOThreads and devices only -/
def Reading.Usable : Reading → Prop
  | .depth _ _ _ => True
  | .thread id _ => isManagedIotId id = true
  | .queues path _ => path ≠ ""

theorem depthReading_usable {labels number : List Char} {r : Reading} (h : depthReading labels number = some r) :
    r.Usable := by
  unfold depthReading at h
  dsimp only at h
  split at h
  · cases h
    trivial
  · cases h

theorem threadReading_usable {labels : List Char} {r : Reading} (h : threadReading labels = some r) : r.Usable := by
  unfold threadReading at h
  dsimp only at h
  split at h
  · cases h
  · split_ifs at h with hid
    obtain ⟨tid, -, rfl⟩ := Option.map_eq_some_iff.1 h
    exact Bool.eq_true_of_not_eq_false fun hmanaged => hid (Or.inr hmanaged)

theorem queuesReading_usable {labels number : List Char} {r : Reading} (h : queuesReading labels number = some r) :
    r.Usable := by
  unfold queuesReading at h
  dsimp only at h
  split_ifs at h with hpath
  obtain ⟨v, -, rfl⟩ := Option.map_eq_some_iff.1 h
  exact hpath

theorem reading_usable {line : List Char} {r : Reading} (h : reading line = some r) : r.Usable := by
  unfold reading at h
  split_ifs at h
  split at h
  · exact depthReading_usable h
  · split at h
    · exact threadReading_usable h
    · obtain ⟨m, -, h⟩ := Option.bind_eq_some_iff.1 h
      exact queuesReading_usable h

theorem usable_of_mem {body : String} {r : Reading} (h : r ∈ readings body) : r.Usable := by
  obtain ⟨line, -, hline⟩ := List.mem_filterMap.1 h
  exact reading_usable hline

/-- the managed device, once found, stays -/
theorem device_run (rs : List Reading) (h : ∀ path count, Reading.queues path count ∈ rs → path ≠ "")
    (state : QemuTopology × Inflight) :
    ((run applyReading state rs).1.devicePath, (run applyReading state rs).1.vqCount) =
      if state.1.devicePath = "" then (rs.filterMap Reading.deviceOf).head?.getD ("", state.1.vqCount)
      else (state.1.devicePath, state.1.vqCount) := by
  induction rs generalizing state with
  | nil =>
    split_ifs with hnone
    · exact Prod.ext hnone rfl
    · rfl
  | cons r rs ih =>
    rw [run_cons, ih fun path count hmem => h path count (List.mem_cons_of_mem r hmem)]
    cases r with
    | depth device vq n => rfl
    | thread id tid => rfl
    | queues path count =>
      have hpath := h path count List.mem_cons_self
      by_cases hnone : state.1.devicePath = ""
      · have hfirst : (Reading.queues path count :: rs).filterMap Reading.deviceOf =
            (path, count) :: rs.filterMap Reading.deviceOf := List.filterMap_cons_some rfl
        simp only [hfirst, applyReading, hnone, hpath, ne_eq, not_true_eq_false, if_true, if_false, List.head?_cons,
          Option.getD_some]
      · simp only [applyReading, hnone, ne_eq, not_false_eq_true, if_true, if_false]

/-! ## The result -/

theorem untouched_apply (state : QemuTopology × Inflight) (r : Reading) :
    (applyReading state r).1.iothreads = state.1.iothreads ∧ (applyReading state r).1.vqInflight = state.1.vqInflight := by
  cases r with
  | depth device vq n => exact ⟨rfl, rfl⟩
  | thread id tid => exact ⟨rfl, rfl⟩
  | queues path count =>
    unfold applyReading
    split_ifs <;> exact ⟨rfl, rfl⟩

theorem untouched_run (rs : List Reading) :
    (run applyReading ({}, ∅) rs).1.iothreads = [] ∧ (run applyReading ({}, ∅) rs).1.vqInflight = [] := by
  refine run_inv (C := fun _ _ => True)
    (fun state : QemuTopology × Inflight => state.1.iothreads = [] ∧ state.1.vqInflight = [])
    (fun state r h _ => ?_) ⟨rfl, rfl⟩ (along_true _ _ _)
  obtain ⟨hiothreads, hinflight⟩ := untouched_apply state r
  exact ⟨hiothreads.trans h.1, hinflight.trans h.2⟩

/-- the two lists are made after the loop -/
theorem finish_eq {state : QemuTopology × Inflight} (h : state.1.iothreads = [] ∧ state.1.vqInflight = []) :
    QemuTopology.finish state =
      { state.1 with
        iothreads := state.1.iothreadTids.keys.insertionSort (· ≤ ·)
        vqInflight := (depthsOf state state.1.devicePath).toList.map Prod.snd } := by
  obtain ⟨⟨iothreads, tids, path, count, vqInflight⟩, inflight⟩ := state
  obtain ⟨rfl, rfl⟩ : iothreads = [] ∧ vqInflight = [] := h
  have hempty (h : tids.isEmpty = true) : tids.keys = [] := ExtTreeMap.keys_eq_nil_iff.2 (ExtTreeMap.isEmpty_iff.1 h)
  unfold QemuTopology.finish depthsOf
  dsimp only
  split_ifs with h
  · rw [hempty h]
    cases inflight[path]? <;> rfl
  · cases inflight[path]? <;> rfl

theorem new_eq_of_readings (body : String) :
    QemuTopology.new body =
      { (loopState body).1 with
        iothreads := (loopState body).1.iothreadTids.keys.insertionSort (· ≤ ·)
        vqInflight := (depthsOf (loopState body) (loopState body).1.devicePath).toList.map Prod.snd } :=
  (new_eq body).trans (finish_eq (untouched_run _))

theorem new_device (body : String) :
    ((QemuTopology.new body).devicePath, (QemuTopology.new body).vqCount) = managedDevice body := by
  rw [new_eq_of_readings]
  exact (device_run (readings body) (fun _ _ => usable_of_mem) ({}, ∅)).trans (if_pos rfl)

theorem new_devicePath (body : String) : (QemuTopology.new body).devicePath = (managedDevice body).1 :=
  congrArg Prod.fst (new_device body)

theorem new_iothreadTids (body id : String) : (QemuTopology.new body).iothreadTids[id]? = reportedTid body id := by
  rw [new_eq_of_readings]
  exact iothreadTids_run body id

theorem new_iothreads (body : String) :
    (QemuTopology.new body).iothreads = (QemuTopology.new body).iothreadTids.keys.insertionSort (· ≤ ·) := by
  rw [new_eq_of_readings]

/-- the depths are the values of a map that holds what the text reports for the managed device -/
theorem new_vqInflight (body : String) : ∃ depths : ExtTreeMap ℕ ℕ,
    (∀ vq, depths[vq]? = reportedDepth body (managedDevice body).1 vq) ∧
      (QemuTopology.new body).vqInflight = depths.toList.map Prod.snd := by
  refine ⟨depthsOf (loopState body) (managedDevice body).1, depthsOf_run body (managedDevice body).1, ?_⟩
  rw [← new_devicePath, new_eq_of_readings]

/-! ## Depths at their queues -/

/-- every entry is the depth that the text reports for the queue of its position -/
def DepthsIndexed (body : String) : Prop :=
  ∀ (i n : ℕ), (QemuTopology.new body).vqInflight[i]? = some n →
    reportedDepth body (QemuTopology.new body).devicePath i = some n

/-- the text reports every queue below one that it reports, of the managed device -/
def NoQueueMissing (body : String) : Prop :=
  ∀ k, (reportedDepth body (managedDevice body).1 k).isSome →
    ∀ i, i < k → (reportedDepth body (managedDevice body).1 i).isSome

theorem depths_indexed_iff (body : String) : DepthsIndexed body ↔ NoQueueMissing body := by
  obtain ⟨depths, hdepths, hinflight⟩ := new_vqInflight body
  unfold DepthsIndexed NoQueueMissing
  simp only [new_devicePath, hinflight, ← hdepths, ← ExtTreeMap.mem_iff_isSome_getElem?]
  exact values_indexed_iff depths

/-- a device with two queues of which the first has no usable line -/
def secondQueueOnly : String :=
  "qemu_virtio_scsi_num_queues\x7bdevice=\"scsi0\"\x7d 2\nqemu_virtio_scsi_vq_inflight\x7bdevice=\"scsi0\",vq=\"1\"\x7d 7\n"

theorem second_queue_read_as_first : ¬ DepthsIndexed secondQueueOnly := by
  intro h
  have hfirst := h 0 7 (by decide +kernel)
  revert hfirst
  decide +kernel

/-! ## The order of the lines -/

/-- readings of different things commute -/
theorem applyReading_comm (state : QemuTopology × Inflight) {a b : Reading} (h : a.slot ≠ b.slot) :
    applyReading (applyReading state a) b = applyReading (applyReading state b) a := by
  obtain ⟨topo, inflight⟩ := state
  cases a with
  | depth device vq n =>
    cases b with
    | depth device' vq' n' =>
      unfold applyReading
      refine Prod.ext rfl ?_
      dsimp only
      simp only [getElem?_insert_eq]
      by_cases hdevice : device = device'
      · subst hdevice
        have hvq : vq ≠ vq' := fun hvq => h (by rw [Reading.slot, Reading.slot, hvq])
        rw [if_pos rfl, Option.getD_some, if_pos rfl, Option.getD_some, insert_insert, insert_insert,
          insert_comm _ hvq]
      · rw [if_neg hdevice, if_neg (Ne.symm hdevice), insert_comm _ hdevice]
    | thread id tid => rfl
    | queues path count =>
      unfold applyReading
      split_ifs <;> rfl
  | thread id tid =>
    cases b with
    | depth device vq n => rfl
    | thread id' tid' =>
      have hid : id ≠ id' := fun hid => h (by rw [Reading.slot, Reading.slot, hid])
      unfold applyReading
      dsimp only
      rw [insert_comm _ hid]
    | queues path count =>
      unfold applyReading
      dsimp only
      split_ifs <;> rfl
  | queues path count =>
    cases b with
    | depth device vq n =>
      unfold applyReading
      split_ifs <;> rfl
    | thread id tid =>
      unfold applyReading
      dsimp only
      split_ifs <;> rfl
    | queues path' count' => exact absurd rfl h

/-- one reading for each thing that is read -/
def DistinctSlots (rs : List Reading) : Prop := (rs.map Reading.slot).Nodup

instance (rs : List Reading) : Decidable (DistinctSlots rs) := inferInstanceAs (Decidable (List.Nodup _))

theorem run_perm (state : QemuTopology × Inflight) {rs rs' : List Reading} (h : rs.Perm rs') (hrs : DistinctSlots rs) :
    run applyReading state rs = run applyReading state rs' := by
  refine h.foldl_eq' (fun a ha b hb z => ?_) state
  by_cases hslot : a.slot = b.slot
  · rw [List.inj_on_of_nodup_map hrs ha hb hslot]
  · exact applyReading_comm z hslot

/-- the lines of one text are those of the other, in any order, and lines that read nothing -/
theorem readings_perm {body body' : String} {extra : List (List Char)} (hextra : ∀ line ∈ extra, reading line = none)
    (h : (lines body').Perm (lines body ++ extra)) : (readings body).Perm (readings body') := by
  have hnone : extra.filterMap reading = [] := List.filterMap_eq_nil_iff.2 hextra
  have hperm := (h.filterMap reading).symm
  rwa [List.filterMap_append, hnone, List.append_nil] at hperm

theorem reading_comment {line : List Char} (h : line.head? = some '#') : reading line = none := if_pos h

theorem reading_unrelated {line : List Char}
    (h : ∀ metric ∈ [iothreadInfo, virtioScsiNumQueues, virtioScsiVqInflight], captures metric line = none) :
    reading line = none := by
  unfold reading
  rw [h virtioScsiVqInflight (by simp), h iothreadInfo (by simp), h virtioScsiNumQueues (by simp)]
  exact ite_self _

theorem managed_of_reported {body id : String} (h : (reportedTid body id).isSome) : isManagedIotId id = true := by
  obtain ⟨tid, htid⟩ := Option.isSome_iff_exists.1 h
  obtain ⟨r, hr, hof⟩ := List.mem_filterMap.1 (List.mem_of_getLast? htid)
  have husable := usable_of_mem hr
  cases r with
  | depth device vq n => cases hof
  | queues path count => cases hof
  | thread id' tid' =>
    unfold Reading.tidOf at hof
    dsimp only at hof
    split_ifs at hof with hid
    exact hid ▸ husable

/-- the topology holds what the text reports -/
structure Reports (body : String) (topo : QemuTopology) : Prop where
  sorted : topo.iothreads.Pairwise (· < ·)
  keys : ∀ id, id ∈ topo.iothreads ↔ id ∈ topo.iothreadTids
  managed : ∀ id ∈ topo.iothreads, isManagedIotId id = true
  tids : ∀ id, topo.iothreadTids[id]? = reportedTid body id
  device : (topo.devicePath, topo.vqCount) = managedDevice body
  /-- the depths are those of the managed device only, by queue -/
  depths : ∃ queues : List ℕ, queues.Pairwise (· < ·) ∧
    (∀ vq, vq ∈ queues ↔ (reportedDepth body topo.devicePath vq).isSome) ∧
    topo.vqInflight.map some = queues.map (reportedDepth body topo.devicePath)

theorem new_reports (body : String) : Reports body (QemuTopology.new body) where
  sorted := by
    have hsorted := List.pairwise_insertionSort (· ≤ ·) (QemuTopology.new body).iothreadTids.keys
    have hnodup := (List.perm_insertionSort (· ≤ ·) (QemuTopology.new body).iothreadTids.keys).nodup_iff.2
      ExtTreeMap.nodup_keys
    rw [new_iothreads]
    exact (hsorted.and hnodup).imp fun h => Std.lt_of_le_of_ne h.1 h.2
  keys id := by
    rw [new_iothreads, List.mem_insertionSort, ExtTreeMap.mem_keys]
  managed id hid := by
    rw [new_iothreads, List.mem_insertionSort, ExtTreeMap.mem_keys, ExtTreeMap.mem_iff_isSome_getElem?,
      new_iothreadTids] at hid
    exact managed_of_reported hid
  tids id := new_iothreadTids body id
  device := new_device body
  depths := by
    obtain ⟨depths, hdepths, hinflight⟩ := new_vqInflight body
    refine ⟨depths.keys, depths.ordered_keys.imp fun h => Nat.compare_eq_lt.1 h, fun vq => ?_, ?_⟩
    · rw [ExtTreeMap.mem_keys, ExtTreeMap.mem_iff_isSome_getElem?, hdepths, new_devicePath]
    · rw [hinflight, new_devicePath, ← ExtTreeMap.map_fst_toList_eq_keys, List.map_map, List.map_map]
      refine List.map_congr_left fun entry hentry => ?_
      have hvalue := ExtTreeMap.mem_toList_iff_getElem?_eq_some.1 (show (entry.1, entry.2) ∈ depths.toList from hentry)
      exact hvalue.symm.trans (hdepths entry.1)

theorem topology_of_lines {body body' : String} {extra : List (List Char)} (hslots : DistinctSlots (readings body))
    (hextra : ∀ line ∈ extra, reading line = none) (hlines : (lines body').Perm (lines body ++ extra)) :
    QemuTopology.new body' = QemuTopology.new body ∧ Reports body (QemuTopology.new body) := by
  have hstate : loopState body' = loopState body := (run_perm _ (readings_perm hextra hlines) hslots).symm
  refine ⟨?_, new_reports body⟩
  calc QemuTopology.new body' = QemuTopology.finish (loopState body') := new_eq body'
    _ = QemuTopology.finish (loopState body) := by rw [hstate]
    _ = QemuTopology.new body := (new_eq body).symm

def oneDevice : String :=
  "qemu_iothread_info\x7bid=\"iot0\",tid=\"123\"\x7d 1\nqemu_virtio_scsi_num_queues\x7bdevice=\"d\"\x7d 1\n" ++
  "qemu_virtio_scsi_vq_inflight\x7bdevice=\"d\",vq=\"0\"\x7d 3\n"

/-- the same lines with the last one first, and a comment among them -/
def oneDeviceShuffled : String :=
  "qemu_virtio_scsi_vq_inflight\x7bdevice=\"d\",vq=\"0\"\x7d 3\n# HELP\n" ++
  "qemu_iothread_info\x7bid=\"iot0\",tid=\"123\"\x7d 1\nqemu_virtio_scsi_num_queues\x7bdevice=\"d\"\x7d 1\n"

theorem topology_of_one_device :
    DistinctSlots (readings oneDevice) ∧ QemuTopology.new oneDeviceShuffled = QemuTopology.new oneDevice ∧
      Reports oneDevice (QemuTopology.new oneDevice) := by
  have hslots : DistinctSlots (readings oneDevice) := by decide +kernel
  exact ⟨hslots, @topology_of_lines oneDevice oneDeviceShuffled ["# HELP".toList] hslots (by decide +kernel)
    (by decide +kernel)⟩

end IoThreadController
