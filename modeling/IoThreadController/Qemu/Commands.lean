/-
QMP commands, ids and mappings.

- `WellMapped`, `execute_wellMapped`: no accepted command leaves a mapping that names a missing IOThread.
- `LibvirtQmp.Kept`: what held of QEMU before a group of commands and holds in every state they leave.
- `nextQemuIothreadId_free`: with fewer than 1024 ids in use the next one is managed and unused.
- `roundRobinVqMapping_balanced`: the round-robin mapping gives every virtqueue to one IOThread, evenly.
-/
import IoThreadController.Model.Qemu

namespace IoThreadController

/-! ## QEMU -/

namespace Qemu

/-- the mapping names only existing IOThreads -/
def WellMapped (q : Qemu) : Prop := ∀ entry ∈ q.mapping, entry.iothread ∈ q.iothreads

/-- the IOThreads that this daemon does not manage -/
def unmanaged (q : Qemu) : Finset String := q.iothreads.filter fun id => ¬ isManagedIotId id

/-- the IOThreads that this daemon manages -/
def managed (q : Qemu) : Finset String := q.iothreads.filter fun id => isManagedIotId id

end Qemu

/-- the command adds or deletes no IOThread but managed ones -/
def QmpCommand.Manages : QmpCommand → Prop
  | .objectAdd id _ | .objectDel id => isManagedIotId id = true
  | .setVqMapping _ _ | .qomGet _ => True

namespace Qemu

theorem execute_wellMapped {q q' : Qemu} {command : QmpCommand} (h : q.execute command = .ok q') (hq : q.WellMapped) :
    q'.WellMapped := by
  cases command with
  | objectAdd id properties =>
    simp only [execute] at h
    split_ifs at h
    cases h
    exact fun entry he => Finset.mem_insert_of_mem (hq entry he)
  | objectDel id =>
    simp only [execute] at h
    split_ifs at h with hmem huse
    cases h
    intro entry he
    exact Finset.mem_erase.2 ⟨fun heq => huse ⟨entry, he, heq⟩, hq entry he⟩
  | setVqMapping path mapping =>
    simp only [execute] at h
    split_ifs at h with hmissing
    cases h
    intro entry he
    by_contra hnot
    exact hmissing ⟨entry, he, hnot⟩
  | qomGet path =>
    cases h
    exact hq

theorem execute_unmanaged {q q' : Qemu} {command : QmpCommand} (h : q.execute command = .ok q')
    (hc : command.Manages) : q'.unmanaged = q.unmanaged := by
  cases command with
  | objectAdd id properties =>
    simp only [execute] at h
    split_ifs at h
    cases h
    have hid : isManagedIotId id = true := hc
    simp [unmanaged, Finset.filter_insert, hid]
  | objectDel id =>
    simp only [execute] at h
    split_ifs at h
    cases h
    have hid : isManagedIotId id = true := hc
    simp [unmanaged, Finset.filter_erase, hid]
  | setVqMapping path mapping =>
    simp only [execute] at h
    split_ifs at h
    cases h
    rfl
  | qomGet path =>
    cases h
    rfl

end Qemu

/-! ## Commands over the transport -/

namespace LibvirtQmp

/-- a failed command leaves QEMU alone; a successful one is QEMU's own; either is logged -/
theorem execute_cases (qmp : LibvirtQmp) (command : QmpCommand) :
    (∃ error, qmp.execute command =
      ({ qmp with log := qmp.log ++ [⟨command, .error error, qmp.qemu⟩] }, .error error) ∧
      (qmp.fault qmp.log.length = none → qmp.qemu.execute command = .error error)) ∨
    ∃ qemu, qmp.fault qmp.log.length = none ∧ qmp.qemu.execute command = .ok qemu ∧
      qmp.execute command = ({ qmp with qemu, log := qmp.log ++ [⟨command, .ok (), qemu⟩] }, .ok ()) := by
  unfold execute
  cases hf : qmp.fault qmp.log.length with
  | some error => exact Or.inl ⟨error, rfl, fun h => by cases h⟩
  | none =>
    cases hq : qmp.qemu.execute command with
    | error error => exact Or.inl ⟨error, rfl, fun _ => rfl⟩
    | ok qemu => exact Or.inr ⟨qemu, rfl, rfl, rfl⟩

/-- what the commands of a call keep: the mapping stays well formed if it was, and no unmanaged IOThread changes;
both in every state that the log records since `q` -/
structure Kept (q : Qemu) (qmp : LibvirtQmp) : Prop where
  wellMapped : q.WellMapped → qmp.qemu.WellMapped ∧ ∀ entry ∈ qmp.log, entry.qemu.WellMapped
  unmanaged : qmp.qemu.unmanaged = q.unmanaged ∧ ∀ entry ∈ qmp.log, entry.qemu.unmanaged = q.unmanaged

theorem execute_kept {q : Qemu} {qmp : LibvirtQmp} (h : qmp.Kept q) {command : QmpCommand} (hc : command.Manages) :
    (qmp.execute command).1.Kept q := by
  have hlog : ∀ {P : Qemu → Prop} {entry : QmpEntry}, P entry.qemu → (∀ e ∈ qmp.log, P e.qemu) →
      ∀ e ∈ qmp.log ++ [entry], P e.qemu := by
    intro P entry hentry hold e he
    rcases List.mem_append.1 he with he | he
    · exact hold e he
    · rw [List.mem_singleton.1 he]; exact hentry
  rcases qmp.execute_cases command with ⟨error, heq, -⟩ | ⟨qemu, -, hexec, heq⟩
  · rw [heq]
    exact ⟨fun hq => ⟨(h.wellMapped hq).1, hlog (h.wellMapped hq).1 (h.wellMapped hq).2⟩,
      h.unmanaged.1, hlog (P := fun x => x.unmanaged = q.unmanaged) h.unmanaged.1 h.unmanaged.2⟩
  · rw [heq]
    have hun : qemu.unmanaged = q.unmanaged := (Qemu.execute_unmanaged hexec hc).trans h.unmanaged.1
    refine ⟨fun hq => ?_, hun, hlog (P := fun x => x.unmanaged = q.unmanaged) hun h.unmanaged.2⟩
    have hwell := Qemu.execute_wellMapped hexec (h.wellMapped hq).1
    exact ⟨hwell, hlog hwell (h.wellMapped hq).2⟩

variable {q : Qemu} {qmp qmp' : LibvirtQmp}

theorem execute_ok {command : QmpCommand} (h : qmp.execute command = (qmp', .ok ())) :
    qmp.fault qmp.log.length = none ∧ qmp.qemu.execute command = .ok qmp'.qemu ∧
      qmp' = { qmp with qemu := qmp'.qemu, log := qmp.log ++ [⟨command, .ok (), qmp'.qemu⟩] } := by
  rcases qmp.execute_cases command with ⟨error, heq, -⟩ | ⟨qemu, hf, hexec, heq⟩
  · rw [heq] at h; simp at h
  · rw [heq, Prod.mk.injEq] at h
    obtain ⟨rfl, -⟩ := h
    exact ⟨hf, hexec, rfl⟩

theorem execute_error {command : QmpCommand} {error : QemuError} (h : qmp.execute command = (qmp', .error error)) :
    qmp' = { qmp with log := qmp.log ++ [⟨command, .error error, qmp.qemu⟩] } ∧
      (qmp.fault qmp.log.length = none → qmp.qemu.execute command = .error error) := by
  rcases qmp.execute_cases command with ⟨error', heq, hq⟩ | ⟨qemu, -, -, heq⟩
  · rw [heq, Prod.mk.injEq, Except.error.injEq] at h
    obtain ⟨rfl, rfl⟩ := h
    exact ⟨rfl, hq⟩
  · rw [heq] at h; simp at h

theorem execute_faulted {command : QmpCommand} {error : QemuError} (hf : qmp.fault qmp.log.length = some error) :
    qmp.execute command = ({ qmp with log := qmp.log ++ [⟨command, .error error, qmp.qemu⟩] }, .error error) := by
  unfold execute
  rw [hf]

theorem execute_accepted {command : QmpCommand} {qemu : Qemu} (hf : qmp.fault qmp.log.length = none)
    (hq : qmp.qemu.execute command = .ok qemu) :
    qmp.execute command = ({ qmp with qemu, log := qmp.log ++ [⟨command, .ok (), qemu⟩] }, .ok ()) := by
  unfold execute
  rw [hf, hq]

theorem addIoThread_ok {id : String} {properties : Option IoThreadProperties}
    (h : qmp.addIoThread id properties = (qmp', .ok ())) :
    qmp.fault qmp.log.length = none ∧ id ∉ qmp.qemu.iothreads ∧
      qmp'.qemu = { qmp.qemu with iothreads := insert id qmp.qemu.iothreads } ∧ qmp'.fault = qmp.fault ∧
      qmp'.log.length = qmp.log.length + 1 := by
  unfold addIoThread at h
  split_ifs at h with hblank
  · simp at h
  obtain ⟨hf, hexec, heq⟩ := execute_ok h
  simp only [Qemu.execute] at hexec
  split_ifs at hexec with hmem
  rw [Except.ok.injEq] at hexec
  exact ⟨hf, hmem, hexec.symm, by rw [heq], by rw [heq]; simp⟩

theorem delIoThread_ok {id : String} (h : qmp.delIoThread id = (qmp', .ok ())) :
    qmp.fault qmp.log.length = none ∧ id ∈ qmp.qemu.iothreads ∧
      qmp'.qemu = { qmp.qemu with iothreads := qmp.qemu.iothreads.erase id } := by
  unfold delIoThread at h
  split_ifs at h with hblank
  · simp at h
  obtain ⟨hf, hexec, -⟩ := execute_ok h
  simp only [Qemu.execute] at hexec
  split_ifs at hexec with hmem huse
  rw [Except.ok.injEq] at hexec
  exact ⟨hf, hmem, hexec.symm⟩

theorem setVqMapping_ok {path : String} {mapping : List VqMapping}
    (h : qmp.setVqMapping path mapping = (qmp', .ok ())) :
    isBlank path = false ∧ mapping ≠ [] ∧ qmp.fault qmp.log.length = none ∧
      qmp'.qemu = { qmp.qemu with mapping } ∧ qmp'.fault = qmp.fault ∧ qmp'.log.length = qmp.log.length + 1 := by
  unfold setVqMapping at h
  split_ifs at h with hpath hnil
  · simp at h
  · simp at h
  obtain ⟨hf, hexec, heq⟩ := execute_ok h
  simp only [Qemu.execute] at hexec
  split_ifs at hexec
  rw [Except.ok.injEq] at hexec
  exact ⟨by simpa using hpath, hnil, hf, hexec.symm, by rw [heq], by rw [heq]; simp⟩

theorem addIoThread_kept (h : qmp.Kept q) {id : String} (hid : isManagedIotId id = true)
    (properties : Option IoThreadProperties) : (qmp.addIoThread id properties).1.Kept q := by
  unfold addIoThread
  split_ifs
  · exact h
  · exact execute_kept h hid

theorem delIoThread_kept (h : qmp.Kept q) {id : String} (hid : isManagedIotId id = true) :
    (qmp.delIoThread id).1.Kept q := by
  unfold delIoThread
  split_ifs
  · exact h
  · exact execute_kept h hid

theorem setVqMapping_kept (h : qmp.Kept q) (path : String) (mapping : List VqMapping) :
    (qmp.setVqMapping path mapping).1.Kept q := by
  unfold setVqMapping
  split_ifs
  · exact h
  · exact h
  · exact execute_kept h trivial

end LibvirtQmp

/-! ## Ids -/

theorem iotId_toList (n : ℕ) : (iotId n).toList = 'i' :: 'o' :: 't' :: Nat.toDigits 10 n := by
  have hdigits : (toString n).toList = Nat.toDigits 10 n := Nat.toList_repr
  rw [iotId, String.toList_append, hdigits]
  rfl

theorem iotId_injective : Function.Injective iotId := by
  intro m n h
  have hl := congrArg String.toList h
  rw [iotId_toList, iotId_toList] at hl
  simp only [List.cons.injEq, true_and] at hl
  calc m = Nat.ofDigitChars 10 (Nat.toDigits 10 m) 0 := Nat.ofDigitChars_ten_toDigits.symm
    _ = Nat.ofDigitChars 10 (Nat.toDigits 10 n) 0 := by rw [hl]
    _ = n := Nat.ofDigitChars_ten_toDigits

theorem iotId_managed (n : ℕ) : isManagedIotId (iotId n) = true := by
  unfold isManagedIotId
  rw [iotId_toList]
  have hne : Nat.toDigits 10 n ≠ [] := Nat.toDigits_ne_nil
  simp only [Bool.and_eq_true, Bool.not_eq_true', List.isEmpty_eq_false_iff, List.all_eq_true]
  exact ⟨hne, fun c hc => Nat.isDigit_of_mem_toDigits (by decide) (by decide) hc⟩

theorem not_isBlank_of_managed {id : String} (h : isManagedIotId id = true) : isBlank id = false := by
  unfold isManagedIotId at h
  split at h
  · next digits hid => simp [isBlank, hid, isWhitespace]
  · simp at h

/-- with fewer than 1024 ids in use some `iot{n}` below 1024 is free -/
theorem exists_free_of_length {existing : List String} (h : existing.length < 1024) :
    ∃ n < 1024, iotId n ∉ existing := by
  by_contra hall
  push Not at hall
  have hsub : (List.range 1024).map iotId ⊆ existing := by
    intro id hid
    obtain ⟨n, hn, rfl⟩ := List.mem_map.1 hid
    exact hall n (List.mem_range.1 hn)
  have hnodup : ((List.range 1024).map iotId).Nodup := List.nodup_range.map iotId_injective
  have hle := (hnodup.subperm hsub).length_le
  rw [List.length_map, List.length_range] at hle
  omega

/-- the lowest free `iot{n}` below 1024, or the next id of the other kind when there is none -/
theorem nextQemuIothreadId_spec (existing : List String) (extra : ℕ) :
    (∃ n < 1024, iotId n ∉ existing ∧ (∀ m < n, iotId m ∈ existing) ∧
      nextQemuIothreadId existing extra = (iotId n, extra)) ∨
    (∀ n < 1024, iotId n ∈ existing) ∧
      nextQemuIothreadId existing extra = ("iot-extra-" ++ toString extra, (extra + 1) % 2 ^ 64) := by
  unfold nextQemuIothreadId
  cases hfind : (List.range 1024).find? fun n => decide (iotId n ∉ existing) with
  | none =>
    refine Or.inr ⟨fun n hn => ?_, rfl⟩
    simpa using List.find?_eq_none.1 hfind n (List.mem_range.2 hn)
  | some n =>
    obtain ⟨hfree, hlt, hbelow⟩ := List.find?_range_eq_some.1 hfind
    refine Or.inl ⟨n, List.mem_range.1 hlt, by simpa using hfree, fun m hm => ?_, rfl⟩
    simpa using hbelow m hm

/-- with fewer than 1024 ids in use the next id is managed and unused -/
theorem nextQemuIothreadId_free {existing : List String} (h : existing.length < 1024) (extra : ℕ) :
    (nextQemuIothreadId existing extra).2 = extra ∧ isManagedIotId (nextQemuIothreadId existing extra).1 = true ∧
      (nextQemuIothreadId existing extra).1 ∉ existing := by
  rcases nextQemuIothreadId_spec existing extra with ⟨n, -, hfree, -, heq⟩ | ⟨hall, -⟩
  · rw [heq]
    exact ⟨rfl, iotId_managed n, hfree⟩
  · obtain ⟨n, hn, hfree⟩ := exists_free_of_length h
    exact absurd (hall n hn) hfree

/-! ## Mappings -/

theorem foldl_push (vqs : List ℕ) (entry : VqMapping) :
    vqs.foldl (fun entry vq => entry.push vq) entry = { entry with vqs := entry.vqs ++ vqs } := by
  induction vqs generalizing entry with
  | nil => simp
  | cons vq vqs ih =>
    rw [List.foldl_cons, ih]
    simp [VqMapping.push]

/-- the entries of the mapping: each IOThread in order with its share of the virtqueues -/
theorem roundRobinVqMapping_getElem? {ids : List String} {vqCount : ℕ} (hv : vqCount ≠ 0) (k : ℕ) :
    (roundRobinVqMapping ids vqCount)[k]? = ids[k]?.map fun id => ⟨id, Core.share vqCount ids.length k⟩ := by
  unfold roundRobinVqMapping
  by_cases hids : ids = []
  · simp [hids]
  · rw [if_neg (by simp [hids, hv]), Core.deal_getElem?]
    cases hk : ids[k]? with
    | none => simp [hk]
    | some id => simp [hk, foldl_push]

theorem roundRobinVqMapping_iothreads {ids : List String} {vqCount : ℕ} (hv : vqCount ≠ 0) :
    (roundRobinVqMapping ids vqCount).map VqMapping.iothread = ids := by
  apply List.ext_getElem?
  intro k
  rw [List.getElem?_map, roundRobinVqMapping_getElem? hv]
  cases ids[k]? <;> rfl

theorem roundRobinVqMapping_eq_nil {ids : List String} {vqCount : ℕ} :
    roundRobinVqMapping ids vqCount = [] ↔ ids = [] ∨ vqCount = 0 := by
  by_cases hv : vqCount = 0
  · simp [hv, roundRobinVqMapping]
  · have h := congrArg List.length (@roundRobinVqMapping_iothreads ids vqCount hv)
    rw [List.length_map] at h
    rw [← List.length_eq_zero_iff, h, List.length_eq_zero_iff]
    simp [hv]

/-- the virtqueues that a mapping gives to an IOThread -/
def queuesOf (mapping : List VqMapping) (id : String) : List ℕ :=
  (mapping.filter fun entry => entry.iothread = id).flatMap VqMapping.vqs

theorem queuesOf_of_notMem {mapping : List VqMapping} {id : String} (h : id ∉ mapping.map VqMapping.iothread) :
    queuesOf mapping id = [] := by
  have hnone : (mapping.filter fun entry => entry.iothread = id) = [] := by
    refine List.filter_eq_nil_iff.2 ?_
    intro entry he heq
    exact h (List.mem_map.2 ⟨entry, he, by simpa using heq⟩)
  rw [queuesOf, hnone, List.flatMap_nil]

/-- an IOThread named once has the virtqueues of its entry -/
theorem queuesOf_entry {mapping : List VqMapping} (hn : (mapping.map VqMapping.iothread).Nodup) {entry : VqMapping}
    (he : entry ∈ mapping) : queuesOf mapping entry.iothread = entry.vqs := by
  induction mapping with
  | nil => cases he
  | cons first rest ih =>
    rw [List.map_cons, List.nodup_cons] at hn
    rcases List.mem_cons.1 he with rfl | he
    · have hrest := queuesOf_of_notMem hn.1
      unfold queuesOf at hrest ⊢
      rw [List.filter_cons_of_pos (by simp), List.flatMap_cons, hrest, List.append_nil]
    · have hne : first.iothread ≠ entry.iothread := by
        intro heq
        exact hn.1 (heq ▸ List.mem_map_of_mem he)
      have hrest := ih hn.2 he
      unfold queuesOf at hrest ⊢
      rw [List.filter_cons_of_neg (by simpa using hne)]
      exact hrest

/-- every virtqueue below `vqCount` goes to exactly one of `ids`, nothing else is mapped, and the counts are even -/
structure Balanced (mapping : List VqMapping) (ids : List String) (vqCount : ℕ) : Prop where
  named : ∀ entry ∈ mapping, entry.iothread ∈ ids
  assigned : ∀ vq < vqCount, ∃! id, id ∈ ids ∧ vq ∈ queuesOf mapping id
  once : ∀ id, (queuesOf mapping id).Nodup ∧ ∀ vq ∈ queuesOf mapping id, vq < vqCount
  even : ∀ a ∈ ids, ∀ b ∈ ids, (queuesOf mapping a).length ≤ (queuesOf mapping b).length + 1

theorem queuesOf_roundRobin {ids : List String} (hn : ids.Nodup) {vqCount : ℕ} (hv : vqCount ≠ 0) {k : ℕ} {id : String}
    (hk : ids[k]? = some id) : queuesOf (roundRobinVqMapping ids vqCount) id = Core.share vqCount ids.length k := by
  have hget := @roundRobinVqMapping_getElem? ids vqCount hv k
  rw [hk, Option.map_some] at hget
  have hkeys : ((roundRobinVqMapping ids vqCount).map VqMapping.iothread).Nodup := by
    rw [roundRobinVqMapping_iothreads hv]; exact hn
  exact queuesOf_entry hkeys (List.mem_of_getElem? hget)

theorem roundRobinVqMapping_balanced {ids : List String} (hn : ids.Nodup) (hne : ids ≠ []) {vqCount : ℕ}
    (hv : vqCount ≠ 0) : Balanced (roundRobinVqMapping ids vqCount) ids vqCount := by
  have hkeys := @roundRobinVqMapping_iothreads ids vqCount hv
  have hpos : 0 < ids.length := List.length_pos_iff.2 hne
  have hidx : ∀ {id}, id ∈ ids → ∃ k < ids.length, ids[k]? = some id := by
    intro id hid
    obtain ⟨k, hk⟩ := List.mem_iff_getElem?.1 hid
    exact ⟨k, (List.getElem?_eq_some_iff.1 hk).1, hk⟩
  refine ⟨?_, ?_, ?_, ?_⟩
  · intro entry he
    have hmem : entry.iothread ∈ (roundRobinVqMapping ids vqCount).map VqMapping.iothread := List.mem_map_of_mem he
    rwa [hkeys] at hmem
  · intro vq hvq
    have hlt : vq % ids.length < ids.length := Nat.mod_lt _ hpos
    refine ⟨ids[vq % ids.length], ⟨List.getElem_mem hlt, ?_⟩, ?_⟩
    · rw [queuesOf_roundRobin hn hv (List.getElem?_eq_getElem hlt)]
      exact Core.mem_share.2 ⟨hvq, rfl⟩
    · rintro id ⟨hid, hmem⟩
      obtain ⟨k, hk, hget⟩ := hidx hid
      rw [queuesOf_roundRobin hn hv hget] at hmem
      have hmod := (Core.mem_share.1 hmem).2
      subst hmod
      rw [List.getElem?_eq_getElem hlt, Option.some.injEq] at hget
      exact hget.symm
  · intro id
    by_cases hid : id ∈ ids
    · obtain ⟨k, -, hget⟩ := hidx hid
      rw [queuesOf_roundRobin hn hv hget]
      exact ⟨Core.share_nodup _ _ _, fun vq hvq => (Core.mem_share.1 hvq).1⟩
    · rw [← hkeys] at hid
      rw [queuesOf_of_notMem hid]
      simp
  · intro a ha b hb
    obtain ⟨i, hi, hgeta⟩ := hidx ha
    obtain ⟨j, hj, hgetb⟩ := hidx hb
    rw [queuesOf_roundRobin hn hv hgeta, queuesOf_roundRobin hn hv hgetb]
    exact Core.share_even vqCount hi hj

end IoThreadController
