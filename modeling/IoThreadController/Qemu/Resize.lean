/-
A QEMU resize that returns has done what it says.

- `Coherent`: the cached ids are QEMU's managed ids, sorted. `Spread`: the mapping is the round-robin one over the cache.
- `scaleUp_cases`, `scaleDown_cases`: what one step can do, command by command.
- `scaleUp_spec`, `scaleDown_spec`: one step, from a coherent cache. It fails, or it changes the count by one and leaves
  a coherent cache and a spread mapping; in either case it touches managed IOThreads only.
- `scaleUpTo_spec`, `scaleDownTo_spec`: the loops, which end when the count meets the target.
- `set_thread_count_resizes`: the whole call, for every start, every target and every pattern of failing commands.
-/
import IoThreadController.Qemu.Commands

namespace IoThreadController

/-- the cache lists exactly QEMU's managed IOThreads, sorted -/
structure Coherent (inner : Inner) (q : Qemu) : Prop where
  sorted : inner.iothreads.Pairwise (· ≤ ·)
  nodup : inner.iothreads.Nodup
  mem : ∀ id, id ∈ inner.iothreads ↔ id ∈ q.managed

theorem Coherent.managed_eq {inner : Inner} {q : Qemu} (h : Coherent inner q) :
    q.managed = inner.iothreads.toFinset := by
  ext id
  rw [List.mem_toFinset, h.mem id]

theorem Coherent.isManaged {inner : Inner} {q : Qemu} (h : Coherent inner q) {id : String}
    (hid : id ∈ inner.iothreads) : isManagedIotId id = true :=
  (Finset.mem_filter.1 ((h.mem id).1 hid)).2

namespace QemuInstanceClient

/-- the mapping deals the virtqueues round robin over the cached IOThreads -/
structure Spread (s : QemuInstanceClient) : Prop where
  vqCount : s.inner.vqCount ≠ 0
  mapping : s.client.qemu.mapping = roundRobinVqMapping s.inner.iothreads s.inner.vqCount

/-! ## One step -/

/-- the step failed, or it left `n` cached IOThreads in step with QEMU and a spread mapping -/
def StepResult (s : QemuInstanceClient) (n : ℕ) (p : QemuInstanceClient × Except QemuError ℕ) : Prop :=
  (∃ error, p.2 = .error error) ∨
    p.2 = .ok p.1.threadCount ∧ p.1.inner.iothreads.length = n ∧ p.1.inner.vqCount = s.inner.vqCount ∧
      Coherent p.1.inner p.1.client.qemu ∧ p.1.Spread

variable {q : Qemu} {s : QemuInstanceClient}

/-- the step up adds the next id and maps over all ids, and takes the new IOThread back when it cannot map -/
theorem scaleUp_cases {newId : String} {extra : ℕ} (hnext : nextQemuIothreadId s.inner.iothreads s.extra = (newId, extra)) :
    let newSet := (s.inner.iothreads ++ [newId]).insertionSort (· ≤ ·)
    (∃ client error, s.client.addIoThread newId none = (client, .error error) ∧
        s.scaleUp = ({ s with client, extra }, .error error)) ∨
      ∃ client, s.client.addIoThread newId none = (client, .ok ()) ∧
        ((∃ client' error,
            client.setVqMapping s.inner.devicePath (roundRobinVqMapping newSet s.inner.vqCount) = (client', .error error) ∧
              s.scaleUp = ({ s with client := (client'.delIoThread newId).1, extra }, .error error)) ∨
          ∃ client' s',
            client.setVqMapping s.inner.devicePath (roundRobinVqMapping newSet s.inner.vqCount) = (client', .ok ()) ∧
              s' = { s with client := client', extra, inner := { s.inner with iothreads := newSet } } ∧
              s.scaleUp = (s', .ok s'.threadCount)) := by
  intro newSet
  unfold scaleUp
  rw [hnext]
  dsimp only
  rcases s.client.addIoThread newId none with ⟨client, error | u⟩
  · exact Or.inl ⟨client, error, rfl, rfl⟩
  · refine Or.inr ⟨client, rfl, ?_⟩
    dsimp only
    rcases client.setVqMapping s.inner.devicePath (roundRobinVqMapping newSet s.inner.vqCount) with ⟨client', error | u⟩
    · exact Or.inl ⟨client', error, rfl, rfl⟩
    · exact Or.inr ⟨client', _, rfl, rfl, rfl⟩

/-- the step down maps over the remaining ids and then deletes the last one -/
theorem scaleDown_cases (hlen : 1 < s.inner.iothreads.length) :
    let remaining := s.inner.iothreads.dropLast
    let mapping := roundRobinVqMapping remaining s.inner.vqCount
    (∃ client error, s.client.setVqMapping s.inner.devicePath mapping = (client, .error error) ∧
        s.scaleDown = ({ s with client }, .error error)) ∨
      ∃ client, s.client.setVqMapping s.inner.devicePath mapping = (client, .ok ()) ∧
        ((∃ client' error, client.delIoThread (s.inner.iothreads.getLastD "") = (client', .error error) ∧
            s.scaleDown = ({ s with client := client' }, .error error)) ∨
          ∃ client' s', client.delIoThread (s.inner.iothreads.getLastD "") = (client', .ok ()) ∧
            s' = { s with client := client', inner := { s.inner with iothreads := remaining } } ∧
            s.scaleDown = (s', .ok s'.threadCount)) := by
  intro remaining mapping
  unfold scaleDown
  rw [if_neg (by omega)]
  dsimp only
  rcases s.client.setVqMapping s.inner.devicePath mapping with ⟨client, error | u⟩
  · exact Or.inl ⟨client, error, rfl, rfl⟩
  · refine Or.inr ⟨client, rfl, ?_⟩
    dsimp only
    rcases client.delIoThread (s.inner.iothreads.getLastD "") with ⟨client', error | u⟩
    · exact Or.inl ⟨client', error, rfl, rfl⟩
    · exact Or.inr ⟨client', _, rfl, rfl, rfl⟩

/-- the ids of a shrinking step: the one it deletes, and the others -/
theorem doomed_split (hlen : 1 < s.inner.iothreads.length) :
    s.inner.iothreads.dropLast ++ [s.inner.iothreads.getLastD ""] = s.inner.iothreads ∧
      s.inner.iothreads.dropLast ≠ [] := by
  have hne : s.inner.iothreads ≠ [] := by
    intro h
    simp [h] at hlen
  have hlast : s.inner.iothreads.getLastD "" = s.inner.iothreads.getLast hne := by
    rw [List.getLastD_eq_getLast?, List.getLast?_eq_some_getLast hne, Option.getD_some]
  refine ⟨by rw [hlast, List.dropLast_append_getLast hne], ?_⟩
  intro h
  have hdrop := congrArg List.length h
  rw [List.length_dropLast, List.length_nil] at hdrop
  omega

theorem scaleUp_spec (hco : Coherent s.inner s.client.qemu) (hlen : s.inner.iothreads.length < 1024)
    (hkept : s.client.Kept q) :
    s.scaleUp.1.client.Kept q ∧ s.StepResult (s.inner.iothreads.length + 1) s.scaleUp := by
  obtain ⟨-, hmanaged, hfresh⟩ := nextQemuIothreadId_free hlen s.extra
  rcases hnext : nextQemuIothreadId s.inner.iothreads s.extra with ⟨newId, extra⟩
  rw [hnext] at hmanaged hfresh
  have hadd := LibvirtQmp.addIoThread_kept hkept hmanaged none
  rcases scaleUp_cases hnext with ⟨client, error, hr, heq⟩ | ⟨client, hr, hrest⟩
  · rw [hr] at hadd
    rw [heq]
    exact ⟨hadd, Or.inl ⟨error, rfl⟩⟩
  · rw [hr] at hadd
    obtain ⟨-, hnot, hqemu, -, -⟩ := LibvirtQmp.addIoThread_ok hr
    have hset := LibvirtQmp.setVqMapping_kept hadd s.inner.devicePath
      (roundRobinVqMapping ((s.inner.iothreads ++ [newId]).insertionSort (· ≤ ·)) s.inner.vqCount)
    rcases hrest with ⟨client2, error, hr2, heq⟩ | ⟨client2, s', hr2, hs', heq⟩
    · rw [hr2] at hset
      rw [heq]
      exact ⟨LibvirtQmp.delIoThread_kept hset hmanaged, Or.inl ⟨error, rfl⟩⟩
    · rw [hr2] at hset
      rw [heq, hs']
      obtain ⟨-, hmap, -, hqemu2, -, -⟩ := LibvirtQmp.setVqMapping_ok hr2
      refine ⟨hset, Or.inr ⟨rfl, ?_, rfl, ⟨List.pairwise_insertionSort _ _, ?_, ?_⟩, ?_, ?_⟩⟩
      · simp
      · rw [(List.perm_insertionSort _ _).nodup_iff, List.nodup_append]
        refine ⟨hco.nodup, List.nodup_singleton newId, ?_⟩
        intro a ha b hb
        rw [List.mem_singleton.1 hb]
        exact fun heq => hfresh (heq ▸ ha)
      · intro id
        simp only [List.mem_insertionSort, List.mem_append, List.mem_singleton, hco.mem, hqemu2, hqemu, Qemu.managed,
          Finset.mem_filter, Finset.mem_insert]
        constructor
        · intro h
          rcases h with ⟨hq, hm⟩ | rfl
          · exact ⟨Or.inr hq, hm⟩
          · exact ⟨Or.inl rfl, hmanaged⟩
        · intro h
          obtain ⟨rfl | hq, hm⟩ := h
          · exact Or.inr rfl
          · exact Or.inl ⟨hq, hm⟩
      · intro hv
        exact hmap (roundRobinVqMapping_eq_nil.2 (Or.inr hv))
      · exact congrArg Qemu.mapping hqemu2

theorem scaleDown_spec (hco : Coherent s.inner s.client.qemu) (hlen : 1 < s.inner.iothreads.length)
    (hkept : s.client.Kept q) :
    s.scaleDown.1.client.Kept q ∧ s.StepResult (s.inner.iothreads.length - 1) s.scaleDown := by
  have hsplit := (doomed_split hlen).1
  have hdoomed : s.inner.iothreads.getLastD "" ∈ s.inner.iothreads := by
    rw [← hsplit]
    simp
  have hset := LibvirtQmp.setVqMapping_kept hkept s.inner.devicePath
    (roundRobinVqMapping s.inner.iothreads.dropLast s.inner.vqCount)
  rcases scaleDown_cases hlen with ⟨client, error, hr, heq⟩ | ⟨client, hr, hrest⟩
  · rw [hr] at hset
    rw [heq]
    exact ⟨hset, Or.inl ⟨error, rfl⟩⟩
  · rw [hr] at hset
    obtain ⟨-, hmap, -, hqemu, -, -⟩ := LibvirtQmp.setVqMapping_ok hr
    have hdel := LibvirtQmp.delIoThread_kept hset (hco.isManaged hdoomed)
    rcases hrest with ⟨client2, error, hr2, heq⟩ | ⟨client2, s', hr2, hs', heq⟩
    · rw [hr2] at hdel
      rw [heq]
      exact ⟨hdel, Or.inl ⟨error, rfl⟩⟩
    · rw [hr2] at hdel
      rw [heq, hs']
      obtain ⟨-, -, hqemu2⟩ := LibvirtQmp.delIoThread_ok hr2
      have hnodup := hco.nodup
      rw [← hsplit] at hnodup
      obtain ⟨-, -, hdisj⟩ := List.nodup_append.1 hnodup
      refine ⟨hdel, Or.inr ⟨rfl, ?_, rfl, ⟨?_, ?_, ?_⟩, ?_, ?_⟩⟩
      · simp
      · exact hco.sorted.sublist (List.dropLast_sublist _)
      · exact hco.nodup.sublist (List.dropLast_sublist _)
      · intro id
        have hmem := hco.mem id
        rw [← hsplit, List.mem_append, List.mem_singleton] at hmem
        simp only [Qemu.managed, Finset.mem_filter] at hmem
        simp only [hqemu2, hqemu, Qemu.managed, Finset.mem_filter, Finset.mem_erase]
        constructor
        · intro h
          obtain ⟨hq, hm⟩ := hmem.1 (Or.inl h)
          exact ⟨⟨hdisj id h _ (List.mem_singleton.2 rfl), hq⟩, hm⟩
        · intro h
          obtain ⟨⟨hne, hq⟩, hm⟩ := h
          exact (hmem.2 ⟨hq, hm⟩).resolve_right hne
      · intro hv
        exact hmap (roundRobinVqMapping_eq_nil.2 (Or.inr hv))
      · rw [hqemu2, hqemu]

/-! ## Loops -/

theorem threadCount_eq (h : s.inner.iothreads.length < 2 ^ 32) : s.threadCount = s.inner.iothreads.length :=
  Nat.mod_eq_of_lt h

/-- `s'` is `s` brought to `n` IOThreads: the same record if it had `n`, else one in step with QEMU and spread -/
structure Resized (s s' : QemuInstanceClient) (n : ℕ) : Prop where
  vqCount : s'.inner.vqCount = s.inner.vqCount
  coherent : Coherent s'.inner s'.client.qemu
  length : s'.inner.iothreads.length = n
  same : s.inner.iothreads.length = n → s' = s
  spread : s.inner.iothreads.length ≠ n → s'.Spread

theorem Resized.refl (hco : Coherent s.inner s.client.qemu) : s.Resized s s.inner.iothreads.length :=
  ⟨rfl, hco, rfl, fun _ => rfl, fun h => absurd rfl h⟩

/-- a step followed by a resize that starts from its result -/
theorem Resized.step {s1 s' : QemuInstanceClient} {n : ℕ} (h : s1.Resized s' n) (hvq : s1.inner.vqCount = s.inner.vqCount)
    (hspread : s1.Spread) (hne : s.inner.iothreads.length ≠ n) : s.Resized s' n := by
  refine ⟨h.vqCount.trans hvq, h.coherent, h.length, fun heq => absurd heq hne, fun _ => ?_⟩
  by_cases hn : s1.inner.iothreads.length = n
  · rw [h.same hn]; exact hspread
  · exact h.spread hn

/-- a loop whose turns bring the count one closer to where it ends: it ends after as many turns as it is away, unless a step
fails before -/
theorem loop_spec (loop : ℕ → QemuInstanceClient → Option (QemuInstanceClient × Except QemuError Unit))
    (step : QemuInstanceClient → QemuInstanceClient × Except QemuError ℕ) (distance next final : ℕ → ℕ)
    (hstop : ∀ fuel {s : QemuInstanceClient}, s.inner.iothreads.length < 1024 → distance s.inner.iothreads.length = 0 →
      loop (fuel + 1) s = some (s, .ok ()))
    (hturn : ∀ fuel {s : QemuInstanceClient}, s.inner.iothreads.length < 1024 → 0 < distance s.inner.iothreads.length →
      loop (fuel + 1) s = match step s with
        | (s', .error error) => some (s', .error error)
        | (s', .ok new) => if new = s.threadCount then some (s', .ok ()) else loop fuel s')
    (hstep : ∀ {s : QemuInstanceClient}, Coherent s.inner s.client.qemu → s.inner.iothreads.length < 1024 →
      0 < distance s.inner.iothreads.length → s.client.Kept q →
        (step s).1.client.Kept q ∧ s.StepResult (next s.inner.iothreads.length) (step s))
    (hnext : ∀ {n}, n < 1024 → 0 < distance n → distance (next n) + 1 = distance n ∧ next n ≠ n ∧ next n < 1024 ∧
      final (next n) = final n ∧ final n ≠ n)
    (hfinal : ∀ {n}, distance n = 0 → final n = n) (hco : Coherent s.inner s.client.qemu)
    (hlen : s.inner.iothreads.length < 1024) (hkept : s.client.Kept q) :
    ∃ s' r, (∀ fuel, distance s.inner.iothreads.length < fuel → loop fuel s = some (s', r)) ∧
      s'.client.Kept q ∧ (r = .ok () → s.Resized s' (final s.inner.iothreads.length)) := by
  induction hd : distance s.inner.iothreads.length generalizing s with
  | zero =>
    refine ⟨s, .ok (), ?_, hkept, fun _ => ?_⟩
    · intro fuel hfuel
      obtain ⟨fuel, rfl⟩ := Nat.exists_eq_succ_of_ne_zero hfuel.ne'
      exact hstop fuel hlen hd
    · rw [hfinal hd]
      exact Resized.refl hco
  | succ d ih =>
    have hpos : 0 < distance s.inner.iothreads.length := by omega
    have hcount : s.threadCount = s.inner.iothreads.length := threadCount_eq (by omega)
    obtain ⟨hcloser, hmoved, hbound, hsame, hne⟩ := hnext hlen hpos
    obtain ⟨hkept1, hresult⟩ := hstep hco hlen hpos hkept
    rcases hs1 : step s with ⟨s1, result⟩
    rw [hs1] at hkept1 hresult
    rcases hresult with ⟨error, herr⟩ | ⟨hok, hlen1, hvq, hco1, hspread⟩
    · dsimp only at hkept1 herr
      subst herr
      refine ⟨s1, .error error, ?_, hkept1, fun h => by cases h⟩
      intro fuel hfuel
      obtain ⟨fuel, rfl⟩ := Nat.exists_eq_succ_of_ne_zero (Nat.ne_zero_of_lt hfuel)
      rw [hturn fuel hlen hpos, hs1]
    · dsimp only at hkept1 hok hlen1 hvq hco1 hspread
      subst hok
      have hcount1 : s1.threadCount = s1.inner.iothreads.length := threadCount_eq (by omega)
      rw [← hlen1] at hcloser hmoved hbound hsame
      obtain ⟨s', r, hloop, hkept', hdone⟩ := ih hco1 hbound hkept1 (by omega)
      refine ⟨s', r, ?_, hkept', fun hr => ?_⟩
      · intro fuel hfuel
        obtain ⟨fuel, rfl⟩ := Nat.exists_eq_succ_of_ne_zero (Nat.ne_zero_of_lt hfuel)
        rw [hturn fuel hlen hpos, hs1]
        dsimp only
        rw [if_neg (by omega), hloop fuel (by omega)]
      · exact (hsame ▸ hdone hr).step hvq hspread hne.symm

/-- the growing loop ends after at most one turn for each missing IOThread -/
theorem scaleUpTo_spec {target : ℕ} (ht : target < 1024) (hco : Coherent s.inner s.client.qemu)
    (hlen : s.inner.iothreads.length < 1024) (hkept : s.client.Kept q) :
    ∃ s' r, (∀ fuel, target - s.inner.iothreads.length < fuel → s.scaleUpTo target fuel = some (s', r)) ∧
      s'.client.Kept q ∧ (r = .ok () → s.Resized s' (max s.inner.iothreads.length target)) := by
  have hcount : ∀ {s : QemuInstanceClient}, s.inner.iothreads.length < 1024 →
      s.threadCount = s.inner.iothreads.length := fun h => threadCount_eq (by omega)
  refine loop_spec (scaleUpTo target) scaleUp (fun n => target - n) (fun n => n + 1) (fun n => max n target)
    (fun fuel s hlen hzero => ?_) (fun fuel s hlen hpos => ?_)
    (fun hco hlen _ hkept => scaleUp_spec hco hlen hkept) (fun hn hpos => ?_) (fun hzero => ?_) hco hlen hkept
  · rw [scaleUpTo, if_pos (by rw [hcount hlen]; omega)]
  · rw [scaleUpTo]
    refine (if_neg (by rw [hcount hlen]; omega)).trans ?_
    rcases s.scaleUp with ⟨s', _ | new⟩ <;> rfl
  · omega
  · omega

/-- the shrinking loop ends after at most one turn for each surplus IOThread -/
theorem scaleDownTo_spec {target : ℕ} (ht : 1 ≤ target) (hco : Coherent s.inner s.client.qemu)
    (hlen : s.inner.iothreads.length < 1024) (hkept : s.client.Kept q) :
    ∃ s' r, (∀ fuel, s.inner.iothreads.length - target < fuel → s.scaleDownTo target fuel = some (s', r)) ∧
      s'.client.Kept q ∧ (r = .ok () → s.Resized s' (min s.inner.iothreads.length target)) := by
  have hcount : ∀ {s : QemuInstanceClient}, s.inner.iothreads.length < 1024 →
      s.threadCount = s.inner.iothreads.length := fun h => threadCount_eq (by omega)
  refine loop_spec (scaleDownTo target) scaleDown (fun n => n - target) (fun n => n - 1) (fun n => min n target)
    (fun fuel s hlen hzero => ?_) (fun fuel s hlen hpos => ?_)
    (fun hco _ hpos hkept => scaleDown_spec hco (by omega) hkept) (fun hn hpos => ?_) (fun hzero => ?_) hco hlen hkept
  · rw [scaleDownTo, if_pos (by rw [hcount hlen]; omega)]
  · rw [scaleDownTo]
    refine (if_neg (by rw [hcount hlen]; omega)).trans ?_
    rcases s.scaleDown with ⟨s', _ | new⟩ <;> rfl
  · omega
  · omega

/-- both loops: at most one of them has work to do -/
theorem setThreadCount_spec {target : ℕ} (ht : 1 ≤ target ∧ target ≤ 1023) (hco : Coherent s.inner s.client.qemu)
    (hlen : s.inner.iothreads.length < 1024) (hkept : s.client.Kept q) :
    ∃ s' r, (∀ fuel, 1024 ≤ fuel → setThreadCount fuel s target = some (s', r)) ∧
      s'.client.Kept q ∧ (r = .ok () → s.Resized s' target) := by
  obtain ⟨s1, r1, hup, hkept1, hdone1⟩ := scaleUpTo_spec (show target < 1024 by omega) hco hlen hkept
  have hup' : ∀ fuel, 1024 ≤ fuel → s.scaleUpTo target fuel = some (s1, r1) := fun fuel hfuel => hup fuel (by omega)
  cases r1 with
  | error error =>
    refine ⟨s1, .error error.toBackendClientError, ?_, hkept1, fun h => by cases h⟩
    intro fuel hfuel
    simp only [setThreadCount, hup' fuel hfuel]
  | ok u =>
    have h1 := hdone1 rfl
    have hlen1 := h1.length
    obtain ⟨s2, r2, hdown, hkept2, hdone2⟩ := scaleDownTo_spec ht.1 h1.coherent (by omega) hkept1
    have hdown' : ∀ fuel, 1024 ≤ fuel → s1.scaleDownTo target fuel = some (s2, r2) :=
      fun fuel hfuel => hdown fuel (by omega)
    cases r2 with
    | error error =>
      refine ⟨s2, .error error.toBackendClientError, ?_, hkept2, fun h => by cases h⟩
      intro fuel hfuel
      simp only [setThreadCount, hup' fuel hfuel, hdown' fuel hfuel]
    | ok u =>
      refine ⟨s2, .ok (), ?_, hkept2, fun _ => ?_⟩
      · intro fuel hfuel
        simp only [setThreadCount, hup' fuel hfuel, hdown' fuel hfuel]
      · have h2 := hdone2 rfl
        have hmin : min s1.inner.iothreads.length target = target := by omega
        rw [hmin] at h2
        rcases le_or_gt target s.inner.iothreads.length with hle | hlt
        · -- nothing to add: the first loop returns its input
          have hsame := h1.same (by omega)
          rw [hsame] at h2
          exact h2
        · -- nothing to remove: the second loop returns its input
          rw [max_eq_right hlt.le] at h1 hlen1
          rw [h2.same hlen1]
          exact h1

end QemuInstanceClient

/-! ## The whole call -/

open QemuInstanceClient in
/-- a resize from a coherent cache: it ends; whatever fails on the way, no state of QEMU that it passes through has a
mapping naming a missing IOThread (if there was none before) or another set of unmanaged IOThreads; and if it returns
successfully, QEMU's managed IOThreads and the cache are the same `target` ids, and, if the count changed, the mapping
gives every virtqueue to exactly one of them, evenly -/
theorem set_thread_count_resizes (fault : ℕ → Option QemuError) (q : Qemu) (inner : Inner) (extra target : ℕ)
    (hco : Coherent inner q) (hsize : inner.iothreads.length < 1024) (ht : 1 ≤ target ∧ target ≤ 1023) :
    ∃ s r, (∀ fuel, 1024 ≤ fuel → setThreadCount fuel ⟨⟨fault, q, []⟩, inner, extra⟩ target = some (s, r)) ∧
      (q.WellMapped → ∀ entry ∈ s.client.log, entry.qemu.WellMapped) ∧
      (∀ entry ∈ s.client.log, entry.qemu.unmanaged = q.unmanaged) ∧ s.client.qemu.unmanaged = q.unmanaged ∧
      (r = .ok () →
        s.client.qemu.managed = s.inner.iothreads.toFinset ∧ s.client.qemu.managed.card = target ∧
          s.inner.iothreads.length = target ∧
          (q.managed.card ≠ target → Balanced s.client.qemu.mapping s.inner.iothreads inner.vqCount)) := by
  have hkept : (LibvirtQmp.mk fault q []).Kept q :=
    ⟨fun hq => ⟨hq, fun entry he => by cases he⟩, rfl, fun entry he => by cases he⟩
  have hcard : ∀ {inner : Inner} {q : Qemu}, Coherent inner q → q.managed.card = inner.iothreads.length := by
    intro inner q h
    rw [h.managed_eq, List.toFinset_card_of_nodup h.nodup]
  obtain ⟨s, r, hrun, hk, hdone⟩ := @setThreadCount_spec q ⟨⟨fault, q, []⟩, inner, extra⟩ target ht hco hsize hkept
  refine ⟨s, r, hrun, fun hq => (hk.wellMapped hq).2, hk.unmanaged.2, hk.unmanaged.1, ?_⟩
  intro hr
  have h := hdone hr
  refine ⟨h.coherent.managed_eq, by rw [hcard h.coherent, h.length], h.length, ?_⟩
  intro hne
  rw [hcard hco] at hne
  have hspread := h.spread hne
  have hids : s.inner.iothreads ≠ [] := by
    intro hnil
    have hlen := h.length
    rw [hnil, List.length_nil] at hlen
    omega
  have hvq : s.inner.vqCount = inner.vqCount := h.vqCount
  rw [hspread.mapping, hvq]
  exact roundRobinVqMapping_balanced h.coherent.nodup hids (hvq ▸ hspread.vqCount)

open QemuInstanceClient in
/-- growing from one managed IOThread to three beside an unmanaged one, with no failing command -/
theorem set_thread_count_resizes_grow :
    let q : Qemu := ⟨{"iot0", "boot"}, [⟨"boot", [0, 1, 2, 3]⟩]⟩
    let s : QemuInstanceClient := ⟨⟨fun _ => none, q, []⟩, ⟨["iot0"], "/machine/scsi0", 4⟩, 0⟩
    ∃ s', setThreadCount 1024 s 3 = some (s', .ok ()) ∧ s'.client.qemu.managed.card = 3 ∧
      Balanced s'.client.qemu.mapping s'.inner.iothreads 4 := by
  intro q s
  have hmanaged : q.managed = {"iot0"} := by decide +kernel
  have hco : Coherent s.inner q := by
    refine ⟨List.pairwise_singleton _ _, List.nodup_singleton _, ?_⟩
    intro id
    rw [hmanaged, List.mem_singleton, Finset.mem_singleton]
  obtain ⟨s', r, hrun, -, -, -, hdone⟩ := set_thread_count_resizes (fun _ => none) q s.inner 0 3 hco (by decide) (by decide)
  have hs := hrun 1024 le_rfl
  have hok : (setThreadCount 1024 s 3).map (fun p => p.2.toOption) = some (some ()) := by decide +kernel
  change setThreadCount 1024 s 3 = some (s', r) at hs
  rw [hs] at hok
  cases r with
  | error error => cases hok
  | ok u =>
    obtain ⟨-, hcard, -, hbal⟩ := hdone rfl
    exact ⟨s', hs, hcard, hbal (by rw [hmanaged]; decide)⟩

end IoThreadController
