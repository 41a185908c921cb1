/-
The ids of new IOThreads, from the allocator to the next snapshot.

- `reading_threadLine`: the line that QEMU writes for a managed IOThread is read as that IOThread.
- `mem_iothreads_of_line`: so a topology lists every managed IOThread that its text has a line for.
- `next_id_fresh_iff`: after any history of calls and restarts, the next id is unused, managed and listed by every later
  topology exactly when some `iot{n}` below 1024 is free.
- `scaleUp_counted_iff`: seen from the client, a successful scale-up is counted exactly then.
-/
import IoThreadController.Qemu.Labels
import IoThreadController.Qemu.Resize
import IoThreadController.Qemu.Topology

namespace IoThreadController

/-! ## Characters of ids -/

theorem plain_of_alphanum {value : String} (h : ∀ c ∈ value.toList, c.isAlphanum = true) :
    NeedsNoEscape value ∧ Clean value := by
  refine ⟨fun c hc => ?_, fun c hc => ?_⟩
  · have hbounds := labelChar_bounds (Or.inl (h c hc))
    refine ⟨?_, ?_, ?_⟩ <;>
    · rintro rfl
      revert hbounds
      decide
  · exact ⟨labelChar_ne (Or.inl (h c hc)) (by simp), labelChar_ne (Or.inl (h c hc)) (by simp)⟩

theorem alphanum_of_isDigit {c : Char} (h : c.isDigit = true) : c.isAlphanum = true := by
  simp [Char.isAlphanum, h]

theorem managed_alphanum {id : String} (h : isManagedIotId id = true) : ∀ c ∈ id.toList, c.isAlphanum = true := by
  unfold isManagedIotId at h
  split at h
  · next digits hid =>
    rw [hid]
    intro c hc
    simp only [List.mem_cons] at hc
    rcases hc with rfl | rfl | rfl | hc
    · decide
    · decide
    · decide
    · simp only [Bool.and_eq_true, List.all_eq_true] at h
      exact alphanum_of_isDigit (h.2 c hc)
  · simp at h

theorem toString_isDigit (n : ℕ) : ∀ c ∈ (toString n).toList, c.isDigit = true := by
  have hdigits : (toString n).toList = Nat.toDigits 10 n := Nat.toList_repr
  rw [hdigits]
  exact fun c hc => Nat.isDigit_of_mem_toDigits (by decide) (by decide) hc

/-- a task id is read back as it was written -/
theorem parseI32_toString {n : ℕ} (h : n < 2 ^ 31) : parseI32 (toString n).toList = some (n : ℤ) := by
  have hdigits : (toString n).toList = Nat.toDigits 10 n := Nat.toList_repr
  have hall : (Nat.toDigits 10 n).all Char.isDigit = true := by
    rw [← hdigits]
    exact List.all_eq_true.2 (toString_isDigit n)
  have hparse : parseDigits (Nat.toDigits 10 n) = some n := by
    unfold parseDigits
    rw [if_pos ⟨Nat.toDigits_ne_nil, hall⟩]
    exact congrArg some Nat.ofDigitChars_ten_toDigits
  have hsigned : parseSigned (Nat.toDigits 10 n) = some (n : ℤ) := by
    unfold parseSigned
    split
    · next hminus => simp [hminus] at hall
    · next hplus => simp [hplus] at hall
    · rw [hparse]
      rfl
  unfold parseI32
  rw [hdigits, hsigned]
  simp
  omega

/-! ## From a line to the topology -/

/-- the line for an IOThread -/
def threadLine (id : String) (tid : ℕ) : List Char := renderLine iothreadInfo [("id", id), ("tid", toString tid)] ['1']

theorem roundTrips_threadLabels {id digits : String} (hid : ∀ c ∈ id.toList, c.isAlphanum = true)
    (hdigits : ∀ c ∈ digits.toList, c.isAlphanum = true) :
    RoundTrips iothreadInfo [("id", id), ("tid", digits)] ['1'] := by
  have hdistinct : ["id", "tid"].Nodup := by decide
  have hid' := plain_of_alphanum hid
  have hdigits' := plain_of_alphanum hdigits
  apply roundTrips_of_clean
  · exact hdistinct
  · simp only [List.forall_mem_cons, List.not_mem_nil, false_implies, implies_true, and_true]
    decide
  · simp [hid'.1, hdigits'.1]
  · decide
  · simp [hid'.2, hdigits'.2]

/-- no other pattern takes the line, and it is no comment -/
theorem threadLine_unclaimed (id : String) (tid : ℕ) :
    (threadLine id tid).head? ≠ some '#' ∧ captures virtioScsiVqInflight (threadLine id tid) = none := by
  have hdropped : (threadLine id tid).dropPrefix? (virtioScsiVqInflight.toList ++ ['{']) = none := by
    simp [threadLine, renderLine, iothreadInfo, virtioScsiVqInflight, List.dropPrefix?]
  refine ⟨?_, ?_⟩
  · simp [threadLine, renderLine, iothreadInfo]
  · unfold captures
    rw [hdropped]

theorem reading_threadLine {id : String} (hid : isManagedIotId id = true) {tid : ℕ} (htid : tid < 2 ^ 31) :
    reading (threadLine id tid) = some (.thread id tid) := by
  obtain ⟨part, hpart, hlabels⟩ := roundTrips_threadLabels (managed_alphanum hid)
    fun c hc => alphanum_of_isDigit (toString_isDigit tid c hc)
  obtain ⟨hfirst, hother⟩ := threadLine_unclaimed id tid
  have hne : ¬ (id = "" ∨ isManagedIotId id = false) := by
    rintro (rfl | h)
    · simp [isManagedIotId] at hid
    · simp [hid] at h
  have hthread : threadReading part = some (.thread id tid) := by
    unfold threadReading
    dsimp only
    rw [(hlabels "id" id).2 (by simp), (hlabels "tid" (toString tid)).2 (by simp)]
    dsimp only
    rw [if_neg hne, Option.some_or, Option.getD_some, parseI32_toString htid]
    rfl
  unfold reading
  rw [if_neg hfirst, hother]
  dsimp only
  rw [threadLine, hpart]
  exact hthread

/-- a topology lists every managed IOThread that its text has a line for -/
theorem mem_iothreads_of_line {id : String} (hid : isManagedIotId id = true) {tid : ℕ} (htid : tid < 2 ^ 31)
    {body : String} (hline : threadLine id tid ∈ lines body) : id ∈ (QemuTopology.new body).iothreads := by
  have hreports := new_reports body
  have hreading : Reading.thread id tid ∈ readings body :=
    List.mem_filterMap.2 ⟨_, hline, reading_threadLine hid htid⟩
  have hmem : (tid : ℤ) ∈ (readings body).filterMap (Reading.tidOf id) :=
    List.mem_filterMap.2 ⟨_, hreading, by simp [Reading.tidOf]⟩
  have hsome : (reportedTid body id).isSome = true := by
    unfold reportedTid
    rw [List.getLast?_isSome]
    exact List.ne_nil_of_mem hmem
  rw [hreports.keys, Std.ExtTreeMap.mem_iff_isSome_getElem?, hreports.tids]
  exact hsome

/-! ## The allocator -/

theorem extraId_unmanaged (extra : ℕ) : isManagedIotId ("iot-extra-" ++ toString extra) = false := by
  have hlist : ("iot-extra-" ++ toString extra).toList = 'i' :: 'o' :: 't' :: '-' :: ("extra-" ++ toString extra).toList := by
    rw [String.toList_append, String.toList_append]
    rfl
  unfold isManagedIotId
  rw [hlist]
  rfl

/-- a call of the allocator, or the start of a new process -/
inductive IdCall where
  | next (existing : List String)
  | restart

/-- the counter of the process -/
def IdCall.step (extra : ℕ) : IdCall → ℕ
  | .next existing => (nextQemuIothreadId existing extra).2
  | .restart => 0

/-- the id is unused and managed, and every later topology of a text with a line for it lists it -/
def FreshAndListed (existing : List String) (id : String) : Prop :=
  id ∉ existing ∧ isManagedIotId id = true ∧
    ∀ (tid : ℕ) (body : String), tid < 2 ^ 31 → threadLine id tid ∈ lines body → id ∈ (QemuTopology.new body).iothreads

theorem freshAndListed_iff {existing : List String} {id : String} :
    FreshAndListed existing id ↔ id ∉ existing ∧ isManagedIotId id = true :=
  ⟨fun h => ⟨h.1, h.2.1⟩, fun h => ⟨h.1, h.2, fun _ _ htid hline => mem_iothreads_of_line h.2 htid hline⟩⟩

/-- whatever the counter, the next id is managed exactly when some `iot{n}` below 1024 is free, and then it is unused -/
theorem next_fresh_iff (existing : List String) (extra : ℕ) :
    FreshAndListed existing (nextQemuIothreadId existing extra).1 ↔ ∃ n < 1024, iotId n ∉ existing := by
  rw [freshAndListed_iff]
  rcases nextQemuIothreadId_spec existing extra with ⟨n, hn, hfree, -, heq⟩ | ⟨hall, heq⟩
  · rw [heq]
    exact ⟨fun _ => ⟨n, hn, hfree⟩, fun _ => ⟨hfree, iotId_managed n⟩⟩
  · rw [heq, extraId_unmanaged]
    constructor
    · rintro ⟨-, h⟩
      simp at h
    · rintro ⟨n, hn, hfree⟩
      exact absurd (hall n hn) hfree

/-- after every history of calls and restarts, the next id is fresh and listed exactly when some `iot{n}` is free -/
theorem next_id_fresh_iff (history : List IdCall) (existing : List String) :
    FreshAndListed existing (nextQemuIothreadId existing (Core.run IdCall.step 0 history)).1 ↔
      ∃ n < 1024, iotId n ∉ existing :=
  next_fresh_iff existing _

/-- all 1024 numbers are taken: the next id is not managed, and after a restart it is handed out again -/
theorem extra_id_repeated :
    let taken := (List.range 1024).map iotId
    let extra := Core.run IdCall.step 0 [.next taken, .restart]
    ¬ FreshAndListed taken (nextQemuIothreadId taken 0).1 ∧
      (nextQemuIothreadId (taken ++ ["iot-extra-0"]) extra).1 ∈ taken ++ ["iot-extra-0"] := by
  intro taken extra
  have htaken : ∀ n < 1024, iotId n ∈ taken := fun n hn => List.mem_map_of_mem (List.mem_range.2 hn)
  refine ⟨?_, ?_⟩
  · rw [next_fresh_iff]
    rintro ⟨n, hn, hfree⟩
    exact hfree (htaken n hn)
  · rcases nextQemuIothreadId_spec (taken ++ ["iot-extra-0"]) extra with ⟨n, hn, hfree, -⟩ | ⟨-, heq⟩
    · exact absurd (List.mem_append_left _ (htaken n hn)) hfree
    · rw [heq]
      apply List.mem_append_right
      decide

/-! ## The count after a scale-up -/

/-- the text has a line for every IOThread of QEMU, and for no other managed one -/
structure MetricsOf (body : String) (q : Qemu) : Prop where
  complete : ∀ id ∈ q.iothreads, ∃ tid < 2 ^ 31, threadLine id tid ∈ lines body
  only : ∀ id, (reportedTid body id).isSome = true → id ∈ q.iothreads

/-- the next snapshot counts the managed IOThreads -/
theorem iothreads_length {body : String} {q : Qemu} (h : MetricsOf body q) :
    (QemuTopology.new body).iothreads.length = q.managed.card := by
  have hreports := new_reports body
  have hnodup : (QemuTopology.new body).iothreads.Nodup := by
    apply hreports.sorted.imp
    rintro a b hlt rfl
    exact String.lt_irrefl a hlt
  have hset : (QemuTopology.new body).iothreads.toFinset = q.managed := by
    ext id
    rw [List.mem_toFinset, Qemu.managed, Finset.mem_filter]
    constructor
    · intro hid
      refine ⟨h.only id ?_, hreports.managed id hid⟩
      rw [← hreports.tids, ← Std.ExtTreeMap.mem_iff_isSome_getElem?]
      exact (hreports.keys id).1 hid
    · rintro ⟨hid, hmanaged⟩
      obtain ⟨tid, htid, hline⟩ := h.complete id hid
      exact mem_iothreads_of_line hmanaged htid hline
  rw [← hset, List.toFinset_card_of_nodup hnodup]

/-- a successful scale-up adds the next id to QEMU's IOThreads -/
theorem scaleUp_ok {s s' : QemuInstanceClient} {new : ℕ} (h : s.scaleUp = (s', .ok new)) :
    (nextQemuIothreadId s.inner.iothreads s.extra).1 ∉ s.client.qemu.iothreads ∧
      s'.client.qemu.iothreads = insert (nextQemuIothreadId s.inner.iothreads s.extra).1 s.client.qemu.iothreads := by
  rcases hnext : nextQemuIothreadId s.inner.iothreads s.extra with ⟨newId, extra⟩
  rcases QemuInstanceClient.scaleUp_cases hnext with
    ⟨_, _, -, heq⟩ | ⟨_, hadd, ⟨_, _, -, heq⟩ | ⟨client, s'', hset, hs'', heq⟩⟩
  · simp [heq] at h
  · simp [heq] at h
  · rw [heq] at h
    obtain ⟨rfl, -⟩ := Prod.mk.inj h
    obtain ⟨-, hnot, hqemu, -, -⟩ := LibvirtQmp.addIoThread_ok hadd
    obtain ⟨-, -, -, hqemu', -, -⟩ := LibvirtQmp.setVqMapping_ok hset
    refine ⟨hnot, ?_⟩
    rw [hs'']
    dsimp only
    rw [hqemu', hqemu]

/-- with a coherent cache, the snapshot after a successful scale-up counts one more exactly when some `iot{n}` was free -/
theorem scaleUp_counted_iff {s s' : QemuInstanceClient} {new : ℕ} (hco : Coherent s.inner s.client.qemu)
    (h : s.scaleUp = (s', .ok new)) {body : String} (hbody : MetricsOf body s'.client.qemu) :
    (QemuTopology.new body).iothreads.length = s.inner.iothreads.length + 1 ↔
      ∃ n < 1024, iotId n ∉ s.inner.iothreads := by
  obtain ⟨hnot, hqemu⟩ := scaleUp_ok h
  have hcount : s.inner.iothreads.length = s.client.qemu.managed.card := by
    rw [hco.managed_eq, List.toFinset_card_of_nodup hco.nodup]
  have hafter : s'.client.qemu.managed = (insert (nextQemuIothreadId s.inner.iothreads s.extra).1
      s.client.qemu.iothreads).filter fun id => isManagedIotId id := by rw [Qemu.managed, hqemu]
  rw [iothreads_length hbody, hafter, hcount, ← next_fresh_iff s.inner.iothreads s.extra, freshAndListed_iff,
    Finset.filter_insert]
  cases hmanaged : isManagedIotId (nextQemuIothreadId s.inner.iothreads s.extra).1 with
  | false => simp [Qemu.managed]
  | true =>
    have hfresh : (nextQemuIothreadId s.inner.iothreads s.extra).1 ∉ s.inner.iothreads := by
      rw [hco.mem, Qemu.managed, Finset.mem_filter]
      exact fun hmem => hnot hmem.1
    rw [if_pos rfl, Finset.card_insert_of_notMem (fun hmem => hnot (Finset.mem_filter.1 hmem).1)]
    simp [Qemu.managed, hfresh]

end IoThreadController
