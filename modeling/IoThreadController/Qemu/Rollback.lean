/-
What a failed QEMU resize leaves behind.

A growing step undoes its object-add when the mapping is refused. A shrinking step has nothing to undo its new mapping
with, and no step undoes the steps before it. So a failed resize leaves everything as it was exactly when it fails in
its first step and not at an object-del that follows a changed mapping.

- `FirstStepUndone`: that condition, on the inputs of the call.
- `scaleUp_undone`, `scaleUp_done`, `scaleDown_undone`, `scaleDown_done`: the first step, by whether the condition holds.
- `scaleUpTo_length`, `scaleDownTo_length`: later steps never return to the number of IOThreads at the start.
- `failed_resize_unchanged_iff`: the whole call.
-/
import IoThreadController.Qemu.Resize

namespace IoThreadController

/-- the client refuses to set any mapping: a blank device path, or no virtqueue to map -/
def Inner.Refused (inner : Inner) : Prop := isBlank inner.devicePath = true ∨ inner.vqCount = 0

/-- the failure strikes in the first step of the resize, where the step leaves no trace -/
def FirstStepUndone (fault : ℕ → Option QemuError) (q : Qemu) (inner : Inner) (target : ℕ) : Prop :=
  if inner.iothreads.length < target then
    -- growing: the object-add, or the mapping, which the object-del of the new IOThread undoes
    inner.Refused ∨ fault 0 ≠ none ∨ fault 1 ≠ none
  else
    -- shrinking: the mapping, or the object-del if the mapping it follows changed nothing
    inner.Refused ∨ fault 0 ≠ none ∨
      fault 1 ≠ none ∧ q.mapping = roundRobinVqMapping inner.iothreads.dropLast inner.vqCount

namespace LibvirtQmp

variable {qmp : LibvirtQmp} {inner : Inner}

/-- a mapping that is refused or strikes a failing command changes nothing -/
theorem setVqMapping_fails (h : inner.Refused ∨ qmp.fault qmp.log.length ≠ none) (ids : List String) :
    ∃ qmp' error, qmp.setVqMapping inner.devicePath (roundRobinVqMapping ids inner.vqCount) = (qmp', .error error) ∧
      qmp'.qemu = qmp.qemu := by
  unfold setVqMapping
  by_cases hblank : isBlank inner.devicePath = true
  · rw [if_pos hblank]
    exact ⟨qmp, _, rfl, rfl⟩
  rw [if_neg hblank]
  by_cases hnil : roundRobinVqMapping ids inner.vqCount = []
  · rw [if_pos hnil]
    exact ⟨qmp, _, rfl, rfl⟩
  rw [if_neg hnil]
  have hvq : inner.vqCount ≠ 0 := fun h0 => hnil (roundRobinVqMapping_eq_nil.2 (Or.inr h0))
  rcases h with (hb | h0) | hf
  · exact absurd hb hblank
  · exact absurd h0 hvq
  · obtain ⟨error, hf⟩ := Option.ne_none_iff_exists'.1 hf
    rw [execute_faulted hf]
    exact ⟨_, error, rfl, rfl⟩

theorem setVqMapping_works (hr : ¬ inner.Refused) (hf : qmp.fault qmp.log.length = none) {ids : List String}
    (hids : ids ≠ []) (hmem : ∀ id ∈ ids, id ∈ qmp.qemu.iothreads) :
    ∃ qmp', qmp.setVqMapping inner.devicePath (roundRobinVqMapping ids inner.vqCount) = (qmp', .ok ()) ∧
      qmp'.qemu = { qmp.qemu with mapping := roundRobinVqMapping ids inner.vqCount } ∧
      qmp'.fault = qmp.fault ∧ qmp'.log.length = qmp.log.length + 1 := by
  unfold Inner.Refused at hr
  push Not at hr
  have hnil : roundRobinVqMapping ids inner.vqCount ≠ [] := fun h =>
    (roundRobinVqMapping_eq_nil.1 h).elim hids hr.2
  have haccept : qmp.qemu.execute (.setVqMapping inner.devicePath (roundRobinVqMapping ids inner.vqCount)) =
      .ok { qmp.qemu with mapping := roundRobinVqMapping ids inner.vqCount } := by
    simp only [Qemu.execute]
    rw [if_neg]
    intro h
    obtain ⟨entry, he, hmissing⟩ := h
    have hname : entry.iothread ∈ (roundRobinVqMapping ids inner.vqCount).map VqMapping.iothread :=
      List.mem_map_of_mem he
    rw [roundRobinVqMapping_iothreads hr.2] at hname
    exact hmissing (hmem _ hname)
  unfold setVqMapping
  rw [if_neg (by simpa using hr.1), if_neg hnil, execute_accepted hf haccept]
  exact ⟨_, rfl, rfl, rfl, by simp⟩

/-- adding a new IOThread and deleting it again changes nothing -/
theorem rollback_unchanged {q : Qemu} {id : String} (hblank : isBlank id = false) (hnot : id ∉ q.iothreads)
    (hq : qmp.qemu = { q with iothreads := insert id q.iothreads })
    (hdel : ∀ entry ∈ (qmp.delIoThread id).1.log, ∀ x, entry.command = .objectDel x → entry.result = .ok ()) :
    (qmp.delIoThread id).1.qemu = q := by
  rcases hr : qmp.delIoThread id with ⟨qmp', result⟩
  cases result with
  | ok u =>
    obtain ⟨-, -, hqemu⟩ := delIoThread_ok hr
    rw [hqemu, hq]
    simp [Finset.erase_insert hnot]
  | error error =>
    have hexec := hr
    unfold delIoThread at hexec
    rw [if_neg (by simp [hblank])] at hexec
    obtain ⟨heq, -⟩ := execute_error hexec
    have hentry := hdel ⟨.objectDel id, .error error, qmp.qemu⟩ (by rw [hr, heq]; simp) id rfl
    cases hentry

end LibvirtQmp

namespace QemuInstanceClient

variable {s : QemuInstanceClient}

/-! ## The first step -/

/-- a new managed id is free in QEMU too -/
theorem next_free (hco : Coherent s.inner s.client.qemu) (hlen : s.inner.iothreads.length < 1024) :
    isBlank (nextQemuIothreadId s.inner.iothreads s.extra).1 = false ∧
      (nextQemuIothreadId s.inner.iothreads s.extra).1 ∉ s.client.qemu.iothreads := by
  obtain ⟨-, hmanaged, hfresh⟩ := nextQemuIothreadId_free hlen s.extra
  refine ⟨not_isBlank_of_managed hmanaged, fun hmem => hfresh ?_⟩
  exact (hco.mem _).2 (Finset.mem_filter.2 ⟨hmem, hmanaged⟩)

theorem newSet_ne_nil (ids : List String) (id : String) : (ids ++ [id]).insertionSort (· ≤ ·) ≠ [] := by
  intro h
  have hlen := congrArg List.length h
  simp at hlen

/-- a growing step that fails as the first one: the cache is as before, and QEMU too if the rollback succeeded -/
theorem scaleUp_undone (hco : Coherent s.inner s.client.qemu) (hlen : s.inner.iothreads.length < 1024)
    (hlog : s.client.log = [])
    (h : s.inner.Refused ∨ s.client.fault 0 ≠ none ∨ s.client.fault 1 ≠ none) :
    ∃ s' error, s.scaleUp = (s', .error error) ∧ s'.inner = s.inner ∧
      ((∀ entry ∈ s'.client.log, ∀ id, entry.command = .objectDel id → entry.result = .ok ()) →
        s'.client.qemu = s.client.qemu) := by
  obtain ⟨hblank, hnot⟩ := next_free hco hlen
  unfold scaleUp
  generalize nextQemuIothreadId s.inner.iothreads s.extra = next at hblank hnot
  obtain ⟨newId, extra⟩ := next
  dsimp only at hblank hnot ⊢
  have hadd : s.client.addIoThread newId none = s.client.execute (.objectAdd newId none) := by
    rw [LibvirtQmp.addIoThread, if_neg (by simp [hblank])]
  cases hf : s.client.fault 0 with
  | some error =>
    rw [hadd, LibvirtQmp.execute_faulted (by rw [hlog]; exact hf)]
    exact ⟨_, error, rfl, rfl, fun _ => rfl⟩
  | none =>
    rw [hadd, LibvirtQmp.execute_accepted (by rw [hlog]; exact hf) (by simp only [Qemu.execute]; rw [if_neg hnot])]
    dsimp only
    set client : LibvirtQmp := { s.client with
      qemu := { s.client.qemu with iothreads := insert newId s.client.qemu.iothreads }
      log := s.client.log ++ [⟨.objectAdd newId none, .ok (), { s.client.qemu with
        iothreads := insert newId s.client.qemu.iothreads }⟩] } with hclient
    have hset : s.inner.Refused ∨ client.fault client.log.length ≠ none := by
      rcases h with hr | h0 | h1
      · exact Or.inl hr
      · exact absurd hf h0
      · exact Or.inr (by simpa [hclient, hlog] using h1)
    obtain ⟨client', error, heq, hqemu⟩ := LibvirtQmp.setVqMapping_fails hset
      ((s.inner.iothreads ++ [newId]).insertionSort (· ≤ ·))
    rw [heq]
    exact ⟨_, error, rfl, rfl, LibvirtQmp.rollback_unchanged hblank hnot hqemu⟩

/-- otherwise it succeeds -/
theorem scaleUp_done (hco : Coherent s.inner s.client.qemu) (hlen : s.inner.iothreads.length < 1024)
    (hlog : s.client.log = [])
    (h : ¬ (s.inner.Refused ∨ s.client.fault 0 ≠ none ∨ s.client.fault 1 ≠ none)) :
    ∃ s' new, s.scaleUp = (s', .ok new) := by
  push Not at h
  obtain ⟨hr, hf0, hf1⟩ := h
  obtain ⟨hblank, hnot⟩ := next_free hco hlen
  unfold scaleUp
  generalize nextQemuIothreadId s.inner.iothreads s.extra = next at hblank hnot
  obtain ⟨newId, extra⟩ := next
  dsimp only at hblank hnot ⊢
  rw [LibvirtQmp.addIoThread, if_neg (by simp [hblank]), LibvirtQmp.execute_accepted (by rw [hlog]; exact hf0)
    (by simp only [Qemu.execute]; rw [if_neg hnot])]
  dsimp only
  obtain ⟨client', heq, -, -, -⟩ := @LibvirtQmp.setVqMapping_works { s.client with
      qemu := { s.client.qemu with iothreads := insert newId s.client.qemu.iothreads }
      log := s.client.log ++ [⟨.objectAdd newId none, .ok (), { s.client.qemu with
        iothreads := insert newId s.client.qemu.iothreads }⟩] } s.inner hr (by simpa [hlog] using hf1)
    ((s.inner.iothreads ++ [newId]).insertionSort (· ≤ ·)) (newSet_ne_nil _ _) (by
      intro id hid
      rw [List.mem_insertionSort, List.mem_append, List.mem_singleton] at hid
      rcases hid with hid | rfl
      · exact Finset.mem_insert_of_mem (Finset.mem_filter.1 ((hco.mem id).1 hid)).1
      · exact Finset.mem_insert_self _ _)
  rw [heq]
  exact ⟨_, _, rfl⟩

/-- a shrinking step that fails without effect -/
theorem scaleDown_undone (hlen : 1 < s.inner.iothreads.length) (hlog : s.client.log = [])
    (h : s.inner.Refused ∨ s.client.fault 0 ≠ none ∨ s.client.fault 1 ≠ none ∧
      s.client.qemu.mapping = roundRobinVqMapping s.inner.iothreads.dropLast s.inner.vqCount) :
    ∃ s' error, s.scaleDown = (s', .error error) ∧ s'.inner = s.inner ∧ s'.client.qemu = s.client.qemu := by
  unfold scaleDown
  rw [if_neg (by omega)]
  dsimp only
  by_cases hfirst : s.inner.Refused ∨ s.client.fault s.client.log.length ≠ none
  · obtain ⟨client, error, heq, hqemu⟩ := LibvirtQmp.setVqMapping_fails hfirst s.inner.iothreads.dropLast
    rw [heq]
    exact ⟨_, error, rfl, rfl, hqemu⟩
  · push Not at hfirst
    obtain ⟨hr, hf0⟩ := hfirst
    rw [hlog] at hf0
    rcases h with hr' | h0 | ⟨h1, hmap⟩
    · exact absurd hr' hr
    · exact absurd hf0 h0
    · -- the mapping is the one already there, so the failing object-del is the only trace
      rcases hset : s.client.setVqMapping s.inner.devicePath
        (roundRobinVqMapping s.inner.iothreads.dropLast s.inner.vqCount) with ⟨client, result⟩
      cases result with
      | error error =>
        unfold LibvirtQmp.setVqMapping at hset
        split_ifs at hset
        · cases hset; exact ⟨_, _, rfl, rfl, rfl⟩
        · cases hset; exact ⟨_, _, rfl, rfl, rfl⟩
        · obtain ⟨heq, -⟩ := LibvirtQmp.execute_error hset
          exact ⟨_, _, rfl, rfl, by rw [heq]⟩
      | ok u =>
        obtain ⟨-, -, -, hqemu, hfault, hloglen⟩ := LibvirtQmp.setVqMapping_ok hset
        rw [← hmap] at hqemu
        have hqemu' : client.qemu = s.client.qemu := hqemu
        dsimp only
        rcases hdel : client.delIoThread (s.inner.iothreads.getLastD "") with ⟨client', result⟩
        cases result with
        | ok u =>
          have hf := (LibvirtQmp.delIoThread_ok hdel).1
          rw [hfault, hloglen, hlog] at hf
          exact absurd hf h1
        | error error =>
          unfold LibvirtQmp.delIoThread at hdel
          split_ifs at hdel
          · cases hdel; exact ⟨_, _, rfl, rfl, hqemu'⟩
          · obtain ⟨heq, -⟩ := LibvirtQmp.execute_error hdel
            exact ⟨_, _, rfl, rfl, by rw [heq]; exact hqemu'⟩

/-- otherwise it succeeds, or fails with a changed mapping -/
theorem scaleDown_done (hco : Coherent s.inner s.client.qemu) (hlen : 1 < s.inner.iothreads.length)
    (hlog : s.client.log = [])
    (h : ¬ (s.inner.Refused ∨ s.client.fault 0 ≠ none ∨ s.client.fault 1 ≠ none ∧
      s.client.qemu.mapping = roundRobinVqMapping s.inner.iothreads.dropLast s.inner.vqCount)) :
    (∃ s' new, s.scaleDown = (s', .ok new)) ∨
      ∃ s' error, s.scaleDown = (s', .error error) ∧ s'.client.qemu ≠ s.client.qemu := by
  push Not at h
  obtain ⟨hr, hf0, hmap⟩ := h
  obtain ⟨hsplit, hremaining⟩ := s.doomed_split hlen
  have hin : ∀ id ∈ s.inner.iothreads, id ∈ s.client.qemu.iothreads := fun id hid =>
    (Finset.mem_filter.1 ((hco.mem id).1 hid)).1
  have hdoomed : s.inner.iothreads.getLastD "" ∈ s.inner.iothreads := by
    rw [← hsplit]
    simp
  have hnodup := hco.nodup
  rw [← hsplit] at hnodup
  obtain ⟨-, -, hdisj⟩ := List.nodup_append.1 hnodup
  obtain ⟨client, hset, hqemu, hfault, hloglen⟩ := LibvirtQmp.setVqMapping_works hr (by rw [hlog]; exact hf0) hremaining
    fun id hid => hin id (List.dropLast_subset _ hid)
  unfold scaleDown
  rw [if_neg (by omega)]
  dsimp only
  rw [hset]
  dsimp only
  generalize hd : s.inner.iothreads.getLastD "" = doomed at hdoomed hdisj
  by_cases hf1 : s.client.fault 1 = none
  · -- the deletion is accepted: the IOThread exists, and the new mapping does not name it
    have hvq : s.inner.vqCount ≠ 0 := fun h0 => hr (Or.inr h0)
    have haccept : client.qemu.execute (.objectDel doomed) =
        .ok { client.qemu with iothreads := client.qemu.iothreads.erase doomed } := by
      simp only [Qemu.execute]
      rw [if_neg (by rw [hqemu]; exact not_not.2 (hin doomed hdoomed)), if_neg]
      intro huse
      obtain ⟨entry, he, hname⟩ := huse
      rw [hqemu] at he
      have hmem : entry.iothread ∈ (roundRobinVqMapping s.inner.iothreads.dropLast s.inner.vqCount).map
          VqMapping.iothread := List.mem_map_of_mem he
      rw [roundRobinVqMapping_iothreads hvq] at hmem
      exact hdisj _ hmem doomed (List.mem_singleton.2 rfl) hname
    have hnotblank : isBlank doomed = false := not_isBlank_of_managed (hco.isManaged hdoomed)
    rw [LibvirtQmp.delIoThread, if_neg (by simp [hnotblank]),
      LibvirtQmp.execute_accepted (by rw [hfault, hloglen, hlog]; exact hf1) haccept]
    exact Or.inl ⟨_, _, rfl⟩
  · rcases hdel : client.delIoThread doomed with ⟨client', result⟩
    cases result with
    | ok u => exact Or.inl ⟨_, _, rfl⟩
    | error error =>
      have hsame : client'.qemu = client.qemu := by
        unfold LibvirtQmp.delIoThread at hdel
        split_ifs at hdel
        · cases hdel; rfl
        · obtain ⟨heq, -⟩ := LibvirtQmp.execute_error hdel
          rw [heq]
      refine Or.inr ⟨_, error, rfl, ?_⟩
      intro heq
      dsimp only at heq
      rw [hsame, hqemu] at heq
      exact hmap hf1 (congrArg Qemu.mapping heq).symm

/-! ## Later steps -/

/-- every growing step that succeeds adds one cached id, and one that fails keeps the cache -/
theorem scaleUp_length (s : QemuInstanceClient) :
    (∃ s' error, s.scaleUp = (s', .error error) ∧ s'.inner = s.inner) ∨
      ∃ s', s.scaleUp = (s', .ok s'.threadCount) ∧ s'.inner.iothreads.length = s.inner.iothreads.length + 1 := by
  rcases hnext : nextQemuIothreadId s.inner.iothreads s.extra with ⟨newId, extra⟩
  rcases scaleUp_cases hnext with ⟨_, error, -, heq⟩ | ⟨_, -, ⟨_, error, -, heq⟩ | ⟨_, s', -, hs', heq⟩⟩
  · exact Or.inl ⟨_, error, heq, rfl⟩
  · exact Or.inl ⟨_, error, heq, rfl⟩
  · refine Or.inr ⟨s', heq, ?_⟩
    rw [hs']
    simp

theorem scaleDown_length (h : 1 < s.inner.iothreads.length) :
    (∃ s' error, s.scaleDown = (s', .error error) ∧ s'.inner = s.inner) ∨
      ∃ s', s.scaleDown = (s', .ok s'.threadCount) ∧ s'.inner.iothreads.length + 1 = s.inner.iothreads.length := by
  rcases scaleDown_cases h with ⟨_, error, -, heq⟩ | ⟨_, -, ⟨_, error, -, heq⟩ | ⟨_, s', -, hs', heq⟩⟩
  · exact Or.inl ⟨_, error, heq, rfl⟩
  · exact Or.inl ⟨_, error, heq, rfl⟩
  · refine Or.inr ⟨s', heq, ?_⟩
    rw [hs']
    simp
    omega

/-- the growing loop never loses an id, and returns successfully with the target number only -/
theorem scaleUpTo_length {target fuel : ℕ} (ht : target < 2 ^ 32) {s' : QemuInstanceClient} {r : Except QemuError Unit}
    (hle : s.inner.iothreads.length ≤ target) (h : s.scaleUpTo target fuel = some (s', r)) :
    s.inner.iothreads.length ≤ s'.inner.iothreads.length ∧ (r = .ok () → s'.inner.iothreads.length = target) := by
  induction fuel generalizing s with
  | zero => simp [scaleUpTo] at h
  | succ fuel ih =>
    have hcount : s.threadCount = s.inner.iothreads.length := threadCount_eq (by omega)
    rw [scaleUpTo] at h
    by_cases hdone : target ≤ s.threadCount
    · rw [if_pos hdone, Option.some.injEq, Prod.mk.injEq] at h
      obtain ⟨rfl, rfl⟩ := h
      exact ⟨le_rfl, fun _ => by omega⟩
    · rw [if_neg hdone] at h
      rcases s.scaleUp_length with ⟨s1, error, hstep, hinner⟩ | ⟨s1, hstep, hlen⟩
      · simp only [hstep, Option.some.injEq, Prod.mk.injEq] at h
        obtain ⟨rfl, rfl⟩ := h
        exact ⟨by rw [hinner], fun hr => by cases hr⟩
      · have hcount1 : s1.threadCount = s1.inner.iothreads.length := threadCount_eq (by omega)
        simp only [hstep] at h
        rw [if_neg (by omega)] at h
        obtain ⟨hgrow, hok⟩ := ih (by omega) h
        exact ⟨by omega, hok⟩

/-- the shrinking loop never gains an id -/
theorem scaleDownTo_length {target fuel : ℕ} (ht : 1 ≤ target) {s' : QemuInstanceClient} {r : Except QemuError Unit}
    (hlt : s.inner.iothreads.length < 2 ^ 32) (h : s.scaleDownTo target fuel = some (s', r)) :
    s'.inner.iothreads.length ≤ s.inner.iothreads.length := by
  induction fuel generalizing s with
  | zero => simp [scaleDownTo] at h
  | succ fuel ih =>
    have hcount : s.threadCount = s.inner.iothreads.length := threadCount_eq hlt
    rw [scaleDownTo] at h
    by_cases hdone : s.threadCount ≤ target
    · rw [if_pos hdone, Option.some.injEq, Prod.mk.injEq] at h
      rw [← h.1]
    · rw [if_neg hdone] at h
      rcases s.scaleDown_length (by omega) with ⟨s1, error, hstep, hinner⟩ | ⟨s1, hstep, hlen⟩
      · simp only [hstep, Option.some.injEq, Prod.mk.injEq] at h
        rw [← h.1, hinner]
      · have hcount1 : s1.threadCount = s1.inner.iothreads.length := threadCount_eq (by omega)
        simp only [hstep] at h
        rw [if_neg (by omega)] at h
        have := ih (by omega) h
        omega

/-! ## The two directions -/

theorem grow_unchanged_iff {target fuel : ℕ} (ht : target < 2 ^ 32) (hco : Coherent s.inner s.client.qemu)
    (hlen : s.inner.iothreads.length < 1024) (hlog : s.client.log = []) (hlt : s.inner.iothreads.length < target)
    {s' : QemuInstanceClient} {error : BackendClientError} (h : setThreadCount fuel s target = some (s', .error error))
    (hcomp : ∀ entry ∈ s'.client.log, ∀ id, entry.command = .objectDel id → entry.result = .ok ()) :
    (s'.client.qemu = s.client.qemu ∧ s'.inner = s.inner) ↔
      s.inner.Refused ∨ s.client.fault 0 ≠ none ∨ s.client.fault 1 ≠ none := by
  have hcount : s.threadCount = s.inner.iothreads.length := threadCount_eq (by omega)
  cases fuel with
  | zero => simp [setThreadCount, scaleUpTo] at h
  | succ fuel =>
    by_cases hcond : s.inner.Refused ∨ s.client.fault 0 ≠ none ∨ s.client.fault 1 ≠ none
    · obtain ⟨s1, error1, hstep, hinner, hqemu⟩ := scaleUp_undone hco hlen hlog hcond
      have hloop : s.scaleUpTo target (fuel + 1) = some (s1, .error error1) := by
        rw [scaleUpTo, if_neg (by omega), hstep]
      simp only [setThreadCount, hloop, Option.some.injEq, Prod.mk.injEq] at h
      obtain ⟨rfl, -⟩ := h
      exact iff_of_true ⟨hqemu hcomp, hinner⟩ hcond
    · -- the first step succeeds, and no later one gives its id up again
      refine iff_of_false ?_ hcond
      intro hsame
      obtain ⟨s1, new, hstep⟩ := scaleUp_done hco hlen hlog hcond
      rcases s.scaleUp_length with ⟨s2, error2, hstep2, -⟩ | ⟨s2, hstep2, hlen2⟩
      · rw [hstep] at hstep2; simp at hstep2
      have hcount2 : s2.threadCount = s2.inner.iothreads.length := threadCount_eq (by omega)
      have hloop : s.scaleUpTo target (fuel + 1) = s2.scaleUpTo target fuel := by
        rw [scaleUpTo, if_neg (by omega), hstep2]
        dsimp only
        rw [if_neg (by omega)]
      rw [setThreadCount, hloop] at h
      rcases hrest : s2.scaleUpTo target fuel with _ | ⟨s3, r⟩
      · rw [hrest] at h; simp at h
      obtain ⟨hgrow, hdone⟩ := scaleUpTo_length ht (by omega) hrest
      rw [hrest] at h
      cases r with
      | error error3 =>
        simp only [Option.some.injEq, Prod.mk.injEq] at h
        rw [h.1, hsame.2] at hgrow
        omega
      | ok u =>
        have hcount3 : s3.threadCount = s3.inner.iothreads.length := threadCount_eq (by rw [hdone rfl]; exact ht)
        have hdown : s3.scaleDownTo target (fuel + 1) = some (s3, .ok ()) := by
          rw [scaleDownTo, if_pos (by rw [hcount3, hdone rfl])]
        simp [hdown] at h

theorem shrink_unchanged_iff {target fuel : ℕ} (ht : 1 ≤ target) (hco : Coherent s.inner s.client.qemu)
    (hlen : s.inner.iothreads.length < 1024) (hlog : s.client.log = []) (hge : target ≤ s.inner.iothreads.length)
    {s' : QemuInstanceClient} {error : BackendClientError} (h : setThreadCount fuel s target = some (s', .error error)) :
    (s'.client.qemu = s.client.qemu ∧ s'.inner = s.inner) ↔
      s.inner.Refused ∨ s.client.fault 0 ≠ none ∨ s.client.fault 1 ≠ none ∧
        s.client.qemu.mapping = roundRobinVqMapping s.inner.iothreads.dropLast s.inner.vqCount := by
  have hcount : s.threadCount = s.inner.iothreads.length := threadCount_eq (by omega)
  cases fuel with
  | zero => simp [setThreadCount, scaleUpTo] at h
  | succ fuel =>
    have hup : s.scaleUpTo target (fuel + 1) = some (s, .ok ()) := by rw [scaleUpTo, if_pos (by omega)]
    simp only [setThreadCount, hup] at h
    by_cases heq : s.inner.iothreads.length = target
    · have hdown : s.scaleDownTo target (fuel + 1) = some (s, .ok ()) := by rw [scaleDownTo, if_pos (by omega)]
      simp [hdown] at h
    by_cases hcond : s.inner.Refused ∨ s.client.fault 0 ≠ none ∨ s.client.fault 1 ≠ none ∧
        s.client.qemu.mapping = roundRobinVqMapping s.inner.iothreads.dropLast s.inner.vqCount
    · obtain ⟨s1, error1, hstep, hinner, hqemu⟩ := scaleDown_undone (by omega) hlog hcond
      have hloop : s.scaleDownTo target (fuel + 1) = some (s1, .error error1) := by
        rw [scaleDownTo, if_neg (by omega), hstep]
      simp only [hloop, Option.some.injEq, Prod.mk.injEq] at h
      obtain ⟨rfl, -⟩ := h
      exact iff_of_true ⟨hqemu, hinner⟩ hcond
    · refine iff_of_false ?_ hcond
      intro hsame
      rcases scaleDown_done hco (by omega) hlog hcond with ⟨s1, new, hstep⟩ | ⟨s1, error1, hstep, hne⟩
      · rcases scaleDown_length (s := s) (by omega) with ⟨s2, error2, hstep2, -⟩ | ⟨s2, hstep2, hlen2⟩
        · rw [hstep] at hstep2; simp at hstep2
        have hcount2 : s2.threadCount = s2.inner.iothreads.length := threadCount_eq (by omega)
        have hloop : s.scaleDownTo target (fuel + 1) = s2.scaleDownTo target fuel := by
          rw [scaleDownTo, if_neg (by omega), hstep2]
          dsimp only
          rw [if_neg (by omega)]
        rcases hrest : s2.scaleDownTo target fuel with _ | ⟨s3, r⟩
        · rw [hloop, hrest] at h; simp at h
        have hshrink := scaleDownTo_length ht (by omega) hrest
        rw [hloop, hrest] at h
        cases r with
        | error error3 =>
          simp only [Option.some.injEq, Prod.mk.injEq] at h
          rw [h.1, hsame.2] at hshrink
          omega
        | ok u => simp at h
      · have hloop : s.scaleDownTo target (fuel + 1) = some (s1, .error error1) := by
          rw [scaleDownTo, if_neg (by omega), hstep]
        simp only [hloop, Option.some.injEq, Prod.mk.injEq] at h
        obtain ⟨rfl, -⟩ := h
        exact hne hsame.1

end QemuInstanceClient

/-! ## The whole call -/

open QemuInstanceClient in
/-- a failed resize: with every compensating object-del successful (a growing resize issues no other), QEMU and the
cache are as before the call exactly when the failure strikes the first step where that step leaves no trace -/
theorem failed_resize_unchanged_iff (fault : ℕ → Option QemuError) (q : Qemu) (inner : Inner) (extra target fuel : ℕ)
    (hco : Coherent inner q) (hsize : inner.iothreads.length < 1024) (ht : 1 ≤ target ∧ target ≤ u32Max)
    {s : QemuInstanceClient} {error : BackendClientError}
    (h : setThreadCount fuel ⟨⟨fault, q, []⟩, inner, extra⟩ target = some (s, .error error))
    (hcomp : inner.iothreads.length < target →
      ∀ entry ∈ s.client.log, ∀ id, entry.command = .objectDel id → entry.result = .ok ()) :
    (s.client.qemu = q ∧ s.inner = inner) ↔ FirstStepUndone fault q inner target := by
  unfold FirstStepUndone
  by_cases hlt : inner.iothreads.length < target
  · rw [if_pos hlt]
    have ht32 : target < 2 ^ 32 := Nat.lt_of_le_pred (by decide) ht.2
    exact @grow_unchanged_iff ⟨⟨fault, q, []⟩, inner, extra⟩ target fuel ht32 hco hsize rfl hlt s error h (hcomp hlt)
  · rw [if_neg hlt]
    exact @shrink_unchanged_iff ⟨⟨fault, q, []⟩, inner, extra⟩ target fuel ht.1 hco hsize rfl (not_lt.1 hlt) s error h

/-! ## Two IOThreads -/

/-- one command fails: the one with number `k` -/
def failAt (k : ℕ) : ℕ → Option QemuError := fun n => if n = k then some (.io "monitor gone") else none

def twoThreads : Qemu := ⟨{"iot0", "iot1"}, [⟨"iot0", [0, 2]⟩, ⟨"iot1", [1, 3]⟩]⟩

def twoThreadsCache : Inner := ⟨["iot0", "iot1"], "/machine/scsi0", 4⟩

theorem twoThreads_coherent : Coherent twoThreadsCache twoThreads ∧ twoThreads.WellMapped := by
  have hmanaged : twoThreads.managed = {"iot0", "iot1"} := by decide +kernel
  refine ⟨⟨by decide +kernel, by decide, ?_⟩, ?_⟩
  · intro id
    rw [hmanaged]
    simp [twoThreadsCache]
  · intro entry he
    fin_cases he <;> decide

open QemuInstanceClient in
/-- the mapping is lost: shrinking to one thread, the object-del fails, and the IOThread stays without virtqueues. And
the resize is half done: growing to four threads, the second object-add fails, and the first one stays -/
theorem failed_resize_changes :
    let start k : QemuInstanceClient := ⟨⟨failAt k, twoThreads, []⟩, twoThreadsCache, 0⟩
    Coherent twoThreadsCache twoThreads ∧ twoThreads.WellMapped ∧
      (setThreadCount 10 (start 1) 1).map (fun p => (p.1.client.qemu, p.1.inner, p.2.toOption)) =
        some (⟨{"iot0", "iot1"}, [⟨"iot0", [0, 1, 2, 3]⟩]⟩, twoThreadsCache, none) ∧
      (setThreadCount 10 (start 2) 4).map (fun p => (p.1.client.qemu, p.1.inner.iothreads, p.2.toOption)) =
        some (⟨{"iot2", "iot0", "iot1"}, [⟨"iot0", [0, 3]⟩, ⟨"iot1", [1]⟩, ⟨"iot2", [2]⟩]⟩,
          ["iot0", "iot1", "iot2"], none) :=
  ⟨twoThreads_coherent.1, twoThreads_coherent.2, by decide +kernel, by decide +kernel⟩

open QemuInstanceClient in
/-- a mapping that fails in the first step is rolled back -/
theorem failed_resize_unchanged_iff_rollback :
    ∃ s error, setThreadCount 10 ⟨⟨failAt 1, twoThreads, []⟩, twoThreadsCache, 0⟩ 4 = some (s, .error error) ∧
      s.client.log.length = 3 ∧ s.client.qemu = twoThreads ∧ s.inner = twoThreadsCache := by
  have hcommands : (setThreadCount 10 ⟨⟨failAt 1, twoThreads, []⟩, twoThreadsCache, 0⟩ 4).map
      (fun p => (p.1.client.log.map fun entry => (entry.command, entry.result.toOption), p.2.toOption)) =
      some ([(.objectAdd "iot2" none, some ()),
        (.setVqMapping "/machine/scsi0" [⟨"iot0", [0, 3]⟩, ⟨"iot1", [1]⟩, ⟨"iot2", [2]⟩], none),
        (.objectDel "iot2", some ())], none) := by decide +kernel
  rcases hrun : setThreadCount 10 ⟨⟨failAt 1, twoThreads, []⟩, twoThreadsCache, 0⟩ 4 with _ | ⟨s, r⟩
  · rw [hrun] at hcommands; cases hcommands
  rw [hrun, Option.map_some, Option.some.injEq, Prod.mk.injEq] at hcommands
  obtain ⟨hlog, hr⟩ := hcommands
  cases r with
  | ok u => cases hr
  | error error =>
    refine ⟨s, error, rfl, by simpa using congrArg List.length hlog, ?_⟩
    refine (failed_resize_unchanged_iff (failAt 1) twoThreads twoThreadsCache 0 4 10 twoThreads_coherent.1 (by decide)
      (by decide) hrun ?_).2 (Or.inr (Or.inr (by decide)))
    intro _ entry he id hcommand
    have hmem := List.mem_map_of_mem (f := fun entry : QmpEntry => (entry.command, entry.result.toOption)) he
    rw [hlog, hcommand] at hmem
    cases hres : entry.result with
    | ok u => rfl
    | error e =>
      rw [hres] at hmem
      simp [Except.toOption] at hmem

end IoThreadController
