/-
Peers of control sockets, identified on a host that goes on (`backends/mod.rs`).

The history of a run has the host as the steps of the lookup in progress have met it.

- `later_step`: what a host leaves as it was. A socket file that has gone does not come back, and neither does a process.
- `finder_step`: so what the cache says of a socket file is true as long as the file is there, also of one that was replaced
  between its metadata and the connection.
- `found_was_peer`: every pid that a lookup reports was the peer of its socket at a step of this lookup, although most lookups
  neither connect nor see who listens.
- `connected_once`: a socket that stays and whose process stays is connected to once, however many passes there are.

Premises: a path never gets the same device and inode again, and between a connection and the reading of its peer's start
time the peer's pid is not taken again.
-/
import IoThreadController.Core.Run
import IoThreadController.Model.ControlSocket

namespace IoThreadController

/-! ## What a host leaves as it was -/

/-- processes started before the clock, and the files that are there have been bound -/
structure SocketHost.Sound (h : SocketHost) : Prop where
  started : ∀ pid startTime, h.processes pid = some startTime → startTime < h.clock
  owners : ∀ path f, h.files path = some f → f.owner.startTime < h.clock
  bound : ∀ path f, h.files path = some f → (path, f.dev, f.ino) ∈ h.bound

/-- the premise on files -/
def SocketHostEvent.Fresh (h : SocketHost) : SocketHostEvent → Prop
  | .bind path dev ino _ => (path, dev, ino) ∉ h.bound
  | _ => True

instance (h : SocketHost) : DecidablePred (SocketHostEvent.Fresh h)
  | .bind path dev ino _ => inferInstanceAs (Decidable ((path, dev, ino) ∉ h.bound))
  | .start _ | .exit _ | .unlink _ => isTrue trivial

/-- `t` comes after `s`: the dead stay dead, and what is at a path was there before or is new -/
structure SocketHost.Later (s t : SocketHost) : Prop where
  clock : s.clock ≤ t.clock
  bound : s.bound ⊆ t.bound
  alive : ∀ p : Peer, p.startTime < s.clock → t.Alive p → s.Alive p
  files : ∀ path f, t.files path = some f → s.files path = some f ∨ (path, f.dev, f.ino) ∉ s.bound

theorem SocketHost.Later.refl (s : SocketHost) : s.Later s :=
  ⟨le_rfl, List.Subset.refl _, fun _ _ h => h, fun _ _ h => Or.inl h⟩

theorem later_step {h : SocketHost} (hs : h.Sound) {e : SocketHostEvent} (he : e.Fresh h) :
    (h.step e).Sound ∧ h.Later (h.step e) := by
  cases e with
  | start pid =>
    simp only [SocketHost.step]
    split
    · exact ⟨hs, .refl h⟩
    · refine ⟨⟨?_, ?_, hs.bound⟩, ⟨Nat.le_succ _, List.Subset.refl _, ?_, fun _ _ hf => Or.inl hf⟩⟩
      · intro pid' startTime hstart
        by_cases heq : pid' = pid
        · subst heq
          simp only [Function.update_self, Option.some.injEq] at hstart
          dsimp only
          omega
        · simp only [Function.update_of_ne heq] at hstart
          exact Nat.lt_succ_of_lt (hs.started pid' startTime hstart)
      · exact fun path f hf => Nat.lt_succ_of_lt (hs.owners path f hf)
      · intro p hp halive
        unfold SocketHost.Alive at halive ⊢
        by_cases heq : p.pid = pid
        · -- the new process starts later
          simp only [heq, Function.update_self, Option.some.injEq] at halive
          omega
        · simpa only [Function.update_of_ne heq] using halive
  | exit pid =>
    refine ⟨⟨?_, hs.owners, hs.bound⟩, ⟨le_rfl, List.Subset.refl _, ?_, fun _ _ hf => Or.inl hf⟩⟩
    · intro pid' startTime hstart
      by_cases heq : pid' = pid
      · simp [SocketHost.step, heq] at hstart
      · simp only [SocketHost.step, Function.update_of_ne heq] at hstart
        exact hs.started pid' startTime hstart
    · intro p _ halive
      unfold SocketHost.Alive at halive ⊢
      by_cases heq : p.pid = pid
      · simp [SocketHost.step, heq] at halive
      · simpa only [SocketHost.step, Function.update_of_ne heq] using halive
  | unlink path =>
    have hold : ∀ path' f, (h.step (.unlink path)).files path' = some f → h.files path' = some f := by
      intro path' f hf
      by_cases heq : path' = path
      · simp [SocketHost.step, heq] at hf
      · simpa only [SocketHost.step, Function.update_of_ne heq] using hf
    refine ⟨⟨hs.started, ?_, ?_⟩, ⟨le_rfl, List.Subset.refl _, fun _ _ halive => halive, ?_⟩⟩
    · exact fun path' f hf => hs.owners path' f (hold path' f hf)
    · exact fun path' f hf => hs.bound path' f (hold path' f hf)
    · exact fun path' f hf => Or.inl (hold path' f hf)
  | bind path dev ino pid =>
    simp only [SocketHost.step]
    split
    · exact ⟨hs, .refl h⟩
    · rename_i startTime hstart
      have hcases : ∀ path' f, Function.update h.files path (some ⟨dev, ino, ⟨pid, startTime⟩⟩) path' = some f →
          h.files path' = some f ∨ path' = path ∧ f = ⟨dev, ino, ⟨pid, startTime⟩⟩ := by
        intro path' f hf
        by_cases heq : path' = path
        · rw [heq, Function.update_self, Option.some.injEq] at hf
          exact Or.inr ⟨heq, hf.symm⟩
        · rw [Function.update_of_ne heq] at hf
          exact Or.inl hf
      refine ⟨⟨hs.started, ?_, ?_⟩, ⟨le_rfl, List.subset_cons_self _ _, fun _ _ halive => halive, ?_⟩⟩
      · intro path' f hf
        rcases hcases path' f hf with hold | ⟨-, rfl⟩
        · exact hs.owners path' f hold
        · exact hs.started pid startTime hstart
      · intro path' f hf
        rcases hcases path' f hf with hold | ⟨rfl, rfl⟩
        · exact List.mem_cons_of_mem _ (hs.bound path' f hold)
        · exact List.mem_cons_self
      · intro path' f hf
        rcases hcases path' f hf with hold | ⟨rfl, rfl⟩
        · exact Or.inl hold
        · exact Or.inr he

/-! ## What is known of a socket -/

/-- the file of that device and inode is the process's: as long as it is there, and it does not come back -/
structure Owns (h : SocketHost) (path : SockPath) (dev ino : ℕ) (owner : Peer) : Prop where
  bound : (path, dev, ino) ∈ h.bound
  started : owner.startTime < h.clock
  file : ∀ f, h.files path = some f → f.dev = dev → f.ino = ino → f.owner = owner

theorem Owns.later {s t : SocketHost} {path : SockPath} {dev ino : ℕ} {owner : Peer} (h : Owns s path dev ino owner)
    (hl : s.Later t) : Owns t path dev ino owner := by
  refine ⟨hl.bound h.bound, h.started.trans_le hl.clock, fun f hf hdev hino => ?_⟩
  rcases hl.files path f hf with hold | hnew
  · exact h.file f hold hdev hino
  · rw [hdev, hino] at hnew
    exact absurd h.bound hnew

/-- what the steps of a lookup have found so far, of hosts that they have met -/
def LookupSound (s : Finder) (met : List SocketHost) (sock : SockPath) : Lookup → Prop
  | .metadata => True
  | .cached dev ino => ∃ m ∈ met, ∃ owner, m.files sock = some ⟨dev, ino, owner⟩ ∧ (s.host.Alive owner → m.Alive owner) ∧
      Owns s.host sock dev ino owner ∧
      ∀ c, s.cache sock = some c → c.dev = dev → c.ino = ino → owner = ⟨c.pid, c.startTime⟩
  | .connect dev ino => (sock, dev, ino) ∈ s.host.bound
  | .insert dev ino pid => ∃ owner : Peer, owner.pid = pid ∧ Owns s.host sock dev ino owner ∧
      (∀ startTime, s.host.processes pid = some startTime → startTime = owner.startTime) ∧
      ∃ m ∈ met, m.peer sock = some pid

/-- the hosts that the steps of the lookup have met -/
def noteHost (s : Finder) (e : FinderEvent) (met : List SocketHost) : List SocketHost :=
  match e, s.pass with
  | .lookup _, _ => s.host :: met
  | .nextEntry _, some p => if p.entry = none then [] else met
  | _, _ => met

def finderHistory : Finder × List SocketHost → FinderEvent → Finder × List SocketHost :=
  Core.withHistory Finder.step noteHost

/-- the host, the cache and the lookup in progress are what they should be -/
structure FinderSound (x : Finder × List SocketHost) : Prop where
  host : x.1.host.Sound
  cache : ∀ path c, x.1.cache path = some c → Owns x.1.host path c.dev c.ino ⟨c.pid, c.startTime⟩
  lookup : ∀ p ∈ x.1.pass, ∀ id l, p.entry = some (id, l) → LookupSound x.1 x.2 (p.sockPath id) l

/-- the pid whose start time is about to be read -/
def Finder.inserting (s : Finder) : Option ℤ :=
  s.pass.bind fun p => match p.entry with
    | some (_, .insert _ _ pid) => some pid
    | _ => none

/-- the premises: files are new, and a pid is not taken again before its start time is read -/
def FinderEvent.Orderly (s : Finder) : FinderEvent → Prop
  | .host event => event.Fresh s.host ∧ ∀ pid ∈ s.inserting, event ≠ .start pid
  | _ => True

instance (s : Finder) : DecidablePred (FinderEvent.Orderly s)
  | .host event => inferInstanceAs (Decidable (event.Fresh s.host ∧ ∀ pid ∈ s.inserting, event ≠ .start pid))
  | .readDir .. | .nextEntry _ | .lookup _ => isTrue trivial

/-! ## One step -/

/-- only a start gives a pid to another process -/
theorem processes_step (h : SocketHost) {e : SocketHostEvent} {pid : ℤ} (hne : e ≠ .start pid) :
    (h.step e).processes pid = none ∨ (h.step e).processes pid = h.processes pid := by
  cases e with
  | start pid' =>
    have hne' : pid ≠ pid' := fun heq => hne (by rw [heq])
    simp only [SocketHost.step]
    split
    · exact Or.inr rfl
    · exact Or.inr (Function.update_of_ne hne' _ _)
  | exit pid' =>
    by_cases heq : pid = pid'
    · exact Or.inl (by simp [SocketHost.step, heq])
    · exact Or.inr (Function.update_of_ne heq _ _)
  | bind path dev ino pid' =>
    simp only [SocketHost.step]
    split <;> exact Or.inr rfl
  | unlink path => exact Or.inr rfl

theorem lookupSound_host {s : Finder} {met : List SocketHost} {sock : SockPath} {l : Lookup} {event : SocketHostEvent}
    (h : LookupSound s met sock l) (hs : s.host.Sound) (he : event.Fresh s.host)
    (hpid : ∀ dev ino pid, l = .insert dev ino pid → event ≠ .start pid) :
    LookupSound { s with host := s.host.step event } met sock l := by
  have hl := (later_step hs he).2
  cases l with
  | metadata => trivial
  | cached dev ino =>
    obtain ⟨m, hm, owner, hfile, halive, howns, hcache⟩ := h
    exact ⟨m, hm, owner, hfile, fun hnow => halive (hl.alive owner howns.started hnow), howns.later hl, hcache⟩
  | connect dev ino => exact hl.bound h
  | insert dev ino pid =>
    obtain ⟨owner, hpid', howns, hstart, hmet⟩ := h
    refine ⟨owner, hpid', howns.later hl, fun startTime hnow => ?_, hmet⟩
    -- the pid is still that process's, or nobody's
    dsimp only at hnow
    rcases processes_step s.host (hpid dev ino pid rfl) with hnone | hsame
    · rw [hnone] at hnow
      cases hnow
    · exact hstart startTime (hsame ▸ hnow)

theorem peer_of_alive {m : SocketHost} {sock : SockPath} {f : SocketFile} (hfile : m.files sock = some f)
    (halive : m.Alive f.owner) : m.peer sock = some f.owner.pid := by
  simp [SocketHost.peer, hfile, halive]

/-- a connection that is made reaches the living owner of the file -/
theorem connected_peer {h : SocketHost} {sock : SockPath} {answer : ConnectAnswer} {pid : ℤ}
    (hc : controlSocketPeerPid h sock answer = .ok pid) :
    ∃ f, h.files sock = some f ∧ h.Alive f.owner ∧ f.owner.pid = pid := by
  unfold controlSocketPeerPid at hc
  cases hfile : h.files sock with
  | none => simp [hfile] at hc
  | some f =>
    simp only [hfile] at hc
    split_ifs at hc with halive
    cases answer with
    | accepted => exact ⟨f, rfl, halive, by simpa using hc⟩
    | busy | noPid => cases hc

/-- where a step of a lookup leaves the pass: the entry is left out, looked at further, or found with a peer that a step
has met -/
inductive Looked (s t : Finder) (met : List SocketHost) (p : SocketPass) (id : VmId) : Prop where
  | skipped (hpass : t.pass = some { p with entry := none })
  | further (l : Lookup) (hpass : t.pass = some { p with entry := some (id, l) })
      (hl : LookupSound t (s.host :: met) (p.sockPath id) l)
  | found (pid : ℤ) (hpass : t.pass = (s.found p id pid).pass)
      (hmet : ∃ m ∈ s.host :: met, m.peer (p.sockPath id) = some pid)

theorem lookupStep_sound {s : Finder} {met : List SocketHost} {p : SocketPass} {id : VmId} {l : Lookup}
    (hs : s.host.Sound) (hcache : ∀ path c, s.cache path = some c → Owns s.host path c.dev c.ino ⟨c.pid, c.startTime⟩)
    (h : LookupSound s met (p.sockPath id) l) (answer : ConnectAnswer) :
    (∀ path c, (s.lookupStep p id answer l).cache path = some c → Owns s.host path c.dev c.ino ⟨c.pid, c.startTime⟩) ∧
      (s.lookupStep p id answer l).host = s.host ∧ Looked s (s.lookupStep p id answer l) met p id := by
  cases l with
  | metadata =>
    cases hfile : s.host.files (p.sockPath id) with
    | none =>
      simp only [Finder.lookupStep, hfile]
      exact ⟨hcache, rfl, .skipped rfl⟩
    | some f =>
      simp only [Finder.lookupStep, hfile]
      refine ⟨hcache, rfl, .further _ rfl ⟨s.host, List.mem_cons_self, f.owner, hfile, fun halive => halive, ?_, ?_⟩⟩
      · refine ⟨hs.bound _ f hfile, hs.owners _ f hfile, fun f' hf' _ _ => ?_⟩
        have heq : f = f' := Option.some.inj (hfile.symm.trans hf')
        rw [heq]
      · intro c hc hdev hino
        exact (hcache _ c hc).file f hfile hdev.symm hino.symm
  | cached dev ino =>
    obtain ⟨m, hm, owner, hfile, halive, howns, hcached⟩ := h
    cases hc : s.cache (p.sockPath id) with
    | none =>
      simp only [Finder.lookupStep, hc]
      exact ⟨hcache, rfl, .further _ rfl howns.bound⟩
    | some c =>
      simp only [Finder.lookupStep, hc]
      split_ifs with hhit
      · obtain ⟨hdev, hino, hnow⟩ := hhit
        have howner := hcached c hc hdev hino
        subst howner
        exact ⟨hcache, rfl, .found _ rfl ⟨m, List.mem_cons_of_mem _ hm, peer_of_alive hfile (halive hnow)⟩⟩
      · exact ⟨hcache, rfl, .further _ rfl howns.bound⟩
  | connect dev ino =>
    cases hc : controlSocketPeerPid s.host (p.sockPath id) answer with
    | error kind =>
      simp only [Finder.lookupStep, hc]
      exact ⟨hcache, rfl, .skipped rfl⟩
    | ok pid =>
      simp only [Finder.lookupStep, hc]
      obtain ⟨f, hfile, halive, hpid⟩ := connected_peer hc
      refine ⟨hcache, rfl, .further _ rfl ⟨f.owner, hpid, ⟨h, hs.owners _ f hfile, ?_⟩, ?_, ?_⟩⟩
      · -- the file of the metadata, or one that has taken its place
        intro f' hf' _ _
        have heq : f = f' := Option.some.inj (hfile.symm.trans hf')
        rw [heq]
      · intro startTime hstart
        rw [← hpid] at hstart
        exact Option.some.inj (hstart.symm.trans halive)
      · exact ⟨s.host, List.mem_cons_self, hpid ▸ peer_of_alive hfile halive⟩
  | insert dev ino pid =>
    obtain ⟨owner, hpid, howns, hstart, m, hm, hpeer⟩ := h
    have hfound : ∃ m ∈ s.host :: met, m.peer (p.sockPath id) = some pid := ⟨m, List.mem_cons_of_mem _ hm, hpeer⟩
    cases hnow : s.host.processes pid with
    | none =>
      simp only [Finder.lookupStep, hnow]
      exact ⟨hcache, rfl, .found pid rfl hfound⟩
    | some startTime =>
      simp only [Finder.lookupStep, hnow]
      refine ⟨fun path c hc => ?_, rfl, .found pid rfl hfound⟩
      by_cases heq : path = p.sockPath id
      · rw [heq, Function.update_self, Option.some.injEq] at hc
        subst heq hc
        have howner : owner = ⟨pid, startTime⟩ := by
          rw [hstart startTime hnow, ← hpid]
        rwa [howner] at howns
      · rw [Function.update_of_ne heq] at hc
        exact hcache path c hc

/-- what an event does -/
inductive Finder.Steps (s : Finder) : FinderEvent → Finder → Prop where
  | host (event : SocketHostEvent) : Steps s (.host event) { s with host := s.host.step event }
  | began (hpass : s.pass = none) (dir : SockPath) (socketName : String) : Steps s (.readDir dir socketName true)
      { s with pass := some { dir, socketName } }
  | unreadable (dir : SockPath) (socketName : String) : Steps s (.readDir dir socketName false)
      { s with returned := some [] :: s.returned }
  | failed {p : SocketPass} (hpass : s.pass = some p) (hentry : p.entry = none) : Steps s (.nextEntry (.error ()))
      { s with pass := none, returned := none :: s.returned }
  | ended {p : SocketPass} (hpass : s.pass = some p) (hentry : p.entry = none) : Steps s (.nextEntry (.ok none))
      { s with pass := none, cache := Finder.retain s.cache p, returned := some p.instances :: s.returned }
  | entered {p : SocketPass} (hpass : s.pass = some p) (hentry : p.entry = none) (id : VmId) :
      Steps s (.nextEntry (.ok (some ⟨some true, some id⟩))) (s.goOn p id .metadata)
  | looked {p : SocketPass} {id : VmId} {l : Lookup} (hpass : s.pass = some p) (hentry : p.entry = some (id, l))
      (answer : ConnectAnswer) : Steps s (.lookup answer) (s.lookupStep p id answer l)
  | idle {e : FinderEvent} (hidle : (∀ p ∈ s.pass, p.entry = none) ∨ ∀ met, noteHost s e met = met) : Steps s e s

theorem Finder.steps (s : Finder) (e : FinderEvent) : s.Steps e (s.step e) := by
  cases e with
  | host event =>
    have hs : s.step (.host event) = { s with host := s.host.step event } := by simp [Finder.step]
    rw [hs]
    exact .host event
  | readDir dir socketName readable =>
    cases hpass : s.pass with
    | some p =>
      have hs : s.step (.readDir dir socketName readable) = s := by simp [Finder.step, hpass]
      rw [hs]
      exact .idle (Or.inr fun _ => rfl)
    | none =>
      cases readable with
      | true =>
        have hs : s.step (.readDir dir socketName true) = { s with pass := some { dir, socketName } } := by
          simp [Finder.step, hpass]
        rw [hs]
        exact .began hpass dir socketName
      | false =>
        have hs : s.step (.readDir dir socketName false) = { s with returned := some [] :: s.returned } := by
          simp [Finder.step, hpass]
        rw [hs]
        exact .unreadable dir socketName
  | nextEntry entry =>
    unfold Finder.step
    cases hpass : s.pass with
    | none => exact .idle (Or.inr fun _ => by simp [noteHost, hpass])
    | some p =>
      dsimp only
      have hnone : p.entry = none → ∀ q ∈ s.pass, q.entry = none := by
        intro hentry q hq
        rw [hpass] at hq
        rwa [← Option.some.inj hq]
      split
      · rename_i hentry
        exact .failed hpass hentry
      · rename_i hentry
        exact .ended hpass hentry
      · rename_i id hentry
        exact .entered hpass hentry id
      · cases hentry : p.entry with
        | none => exact .idle (Or.inl (hnone hentry))
        | some entry => exact .idle (Or.inr fun _ => by simp [noteHost, hpass, hentry])
  | lookup answer =>
    unfold Finder.step
    cases hpass : s.pass with
    | none => exact .idle (Or.inl (by simp [hpass]))
    | some p =>
      dsimp only
      cases hentry : p.entry with
      | none => exact .idle (Or.inl (by simp [hpass, hentry]))
      | some entry => exact .looked hpass hentry answer

theorem finder_step {x : Finder × List SocketHost} (h : FinderSound x) {e : FinderEvent} (he : e.Orderly x.1) :
    FinderSound (finderHistory x e) := by
  obtain ⟨s, met⟩ := x
  change FinderSound (s.step e, noteHost s e met)
  have hstep := s.steps e
  generalize s.step e = t at hstep
  cases hstep with
  | host event =>
    obtain ⟨hfresh, hpid⟩ := he
    obtain ⟨hhost, hlater⟩ := later_step h.host hfresh
    refine ⟨hhost, fun path c hc => (h.cache path c hc).later hlater, fun p hp id l hl => ?_⟩
    refine lookupSound_host (h.lookup p hp id l hl) h.host hfresh ?_
    rintro dev ino pid rfl
    have hpass : s.pass = some p := hp
    exact hpid pid (by simp [Finder.inserting, hpass, hl])
  | began dir socketName =>
    refine ⟨h.host, h.cache, fun p hp id l hl => ?_⟩
    rw [← Option.some.inj hp] at hl
    cases hl
  | unreadable dir socketName => exact ⟨h.host, h.cache, h.lookup⟩
  | failed => exact ⟨h.host, h.cache, by simp⟩
  | @ended p hpass _ =>
    refine ⟨h.host, fun path c hc => ?_, by simp⟩
    dsimp only [Finder.retain] at hc
    split_ifs at hc
    exact h.cache path c hc
  | entered hpass hentry id =>
    refine ⟨h.host, h.cache, fun p' hp id' l hl => ?_⟩
    rw [← Option.some.inj hp] at hl
    cases hl
    trivial
  | @looked p id l hpass hentry answer =>
    obtain ⟨hcache, hhost, hlooked⟩ :=
      lookupStep_sound h.host h.cache (h.lookup p (by rw [hpass]; rfl) id l hentry) answer
    refine ⟨hhost ▸ h.host, fun path c hc => hhost ▸ hcache path c hc, fun p' hp id' l' hl => ?_⟩
    dsimp only at hp
    cases hlooked with
    | skipped hpass' =>
      rw [hpass'] at hp
      rw [← Option.some.inj hp] at hl
      cases hl
    | found pid hpass' =>
      rw [hpass'] at hp
      rw [← Option.some.inj hp] at hl
      cases hl
    | further l'' hpass' hsound =>
      rw [hpass'] at hp
      rw [← Option.some.inj hp] at hl ⊢
      cases hl
      exact hsound
  | idle hidle =>
    refine ⟨h.host, h.cache, fun p hp id l hl => ?_⟩
    rcases hidle with hnone | hmet
    · rw [hnone p hp] at hl
      cases hl
    · rw [hmet]
      exact h.lookup p hp id l hl

/-! ## Runs -/

theorem finderSound_initial : FinderSound ({}, []) :=
  ⟨⟨nofun, nofun, nofun⟩, nofun, nofun⟩

/-- in every run each VM that a pass finds has the pid of a process that was the peer of its socket when a step of this
VM's lookup met the host -/
theorem found_was_peer (events : List FinderEvent)
    (ho : Core.Along finderHistory (fun x e => e.Orderly x.1) ({}, []) events) :
    Core.Along finderHistory
      (fun x e => ∀ p ∈ (x.1.step e).pass, ∀ vm ∈ p.instances, (∃ q ∈ x.1.pass, vm ∈ q.instances) ∨
        ∃ m ∈ x.1.host :: x.2, m.peer vm.sockPath = some vm.pid) ({}, []) events := by
  refine Core.along_of_inv FinderSound (fun _ _ h he => finder_step h he) ?_ finderSound_initial ho
  rintro ⟨s, met⟩ e h - p hp vm hvm
  dsimp only at hp ⊢
  have hstep := s.steps e
  generalize s.step e = t at hstep hp
  cases hstep with
  | host | unreadable | idle => exact Or.inl ⟨p, hp, hvm⟩
  | began dir socketName =>
    rw [← Option.some.inj hp] at hvm
    cases hvm
  | failed | ended => cases hp
  | @entered q hpass _ id =>
    rw [← Option.some.inj hp] at hvm
    exact Or.inl ⟨q, hpass, hvm⟩
  | @looked q id l hpass hentry answer =>
    obtain ⟨-, -, hlooked⟩ :=
      lookupStep_sound h.host h.cache (h.lookup q (by rw [hpass]; rfl) id l hentry) answer
    cases hlooked with
    | skipped hpass' | further _ hpass' _ =>
      rw [hpass'] at hp
      rw [← Option.some.inj hp] at hvm
      exact Or.inl ⟨q, hpass, hvm⟩
    | found pid hpass' hmet =>
      rw [hpass'] at hp
      rw [← Option.some.inj hp] at hvm
      rcases List.mem_append.1 hvm with hold | hnew
      · exact Or.inl ⟨q, hpass, hold⟩
      · rw [List.mem_singleton.1 hnew]
        exact Or.inr hmet

/-- the backend restarts while its VM is looked up: the metadata are of the old socket, the connection reaches the new one; the
next pass connects again, and the third one knows the peer -/
theorem found_was_peer_restarted :
    let pass (between : List FinderEvent) : List FinderEvent :=
      [.readDir ["run"] "ctl" true, .nextEntry (.ok (some ⟨some true, some "vm"⟩)), .lookup .accepted] ++ between ++
        [.lookup .accepted, .lookup .accepted, .lookup .accepted, .nextEntry (.ok none)]
    let events : List FinderEvent :=
      [.host (.start 7), .host (.bind ["run", "vm", "ctl"] 1 40 7)] ++
        pass [.host (.exit 7), .host (.start 7), .host (.bind ["run", "vm", "ctl"] 1 41 7)] ++ pass [] ++ pass []
    let s := Core.run Finder.step {} events
    s.returned = [some [⟨"vm", ["run", "vm", "ctl"], 7⟩], some [⟨"vm", ["run", "vm", "ctl"], 7⟩],
      some [⟨"vm", ["run", "vm", "ctl"], 7⟩]] ∧ s.connected.length = 2 ∧
      Core.Along finderHistory
        (fun x e => ∀ p ∈ (x.1.step e).pass, ∀ vm ∈ p.instances, (∃ q ∈ x.1.pass, vm ∈ q.instances) ∨
          ∃ m ∈ x.1.host :: x.2, m.peer vm.sockPath = some vm.pid) ({}, []) events := by
  intro pass events s
  exact ⟨by decide +kernel, by decide +kernel, found_was_peer events (by decide +kernel)⟩

/-! ## One connection -/

/-- the lookup in progress, if it is of that socket -/
def Finder.lookupOf (s : Finder) (sock : SockPath) : Option Lookup :=
  s.pass.bind fun p => p.entry.bind fun entry => if p.sockPath entry.1 = sock then some entry.2 else none

/-- the socket and its process stay, and a pass that goes through the directory sees it -/
structure Stays (sock : SockPath) (f : SocketFile) (s : Finder) (e : FinderEvent) : Prop where
  file : s.host.files sock = some f
  alive : s.host.Alive f.owner
  seen : e = .nextEntry (.ok none) → ∀ p ∈ s.pass, p.drops sock = false

instance (sock : SockPath) (f : SocketFile) (s : Finder) (e : FinderEvent) : Decidable (Stays sock f s e) :=
  decidable_of_iff
    (s.host.files sock = some f ∧ s.host.Alive f.owner ∧
      (e = .nextEntry (.ok none) → ∀ p ∈ s.pass, p.drops sock = false))
    ⟨fun h => ⟨h.1, h.2.1, h.2.2⟩, fun h => ⟨h.file, h.alive, h.seen⟩⟩

/-- no connection to the socket yet, or one whose peer is known -/
def Settled (sock : SockPath) (f : SocketFile) (n : ℕ) (s : Finder) : Prop :=
  s.connected.count sock ≤ n ∨
    s.cache sock = some ⟨f.dev, f.ino, f.owner.pid, f.owner.startTime⟩ ∧ s.connected.count sock ≤ n + 1

/-- a lookup connects only while there is no connection yet -/
def ConnectedOnce (sock : SockPath) (f : SocketFile) (n : ℕ) (s : Finder) : Prop :=
  match s.lookupOf sock with
  | none | some .metadata => Settled sock f n s
  | some (.cached dev ino) => dev = f.dev ∧ ino = f.ino ∧ Settled sock f n s
  | some (.connect dev ino) => dev = f.dev ∧ ino = f.ino ∧ s.connected.count sock ≤ n
  | some (.insert dev ino pid) => dev = f.dev ∧ ino = f.ino ∧ pid = f.owner.pid ∧ s.connected.count sock ≤ n + 1

theorem ConnectedOnce.count_le {sock : SockPath} {f : SocketFile} {n : ℕ} {s : Finder} (h : ConnectedOnce sock f n s) :
    s.connected.count sock ≤ n + 1 := by
  have hsettled : Settled sock f n s → s.connected.count sock ≤ n + 1 := by
    rintro (hle | ⟨-, hle⟩) <;> omega
  unfold ConnectedOnce at h
  split at h
  · exact hsettled h
  · exact hsettled h
  · exact hsettled h.2.2
  · exact h.2.2.trans (Nat.le_succ n)
  · exact h.2.2.2

theorem Finder.lookupOf_eq_none {s : Finder} {sock : SockPath} (h : ∀ p ∈ s.pass, p.entry = none) :
    s.lookupOf sock = none := by
  unfold Finder.lookupOf
  cases hpass : s.pass with
  | none => rfl
  | some p => simp [h p hpass]

theorem Finder.lookupOf_entry {s : Finder} {p : SocketPass} {id : VmId} {l : Lookup} (sock : SockPath)
    (hpass : s.pass = some p) (hentry : p.entry = some (id, l)) :
    s.lookupOf sock = if p.sockPath id = sock then some l else none := by
  simp [Finder.lookupOf, hpass, hentry]

theorem connectedOnce_of_none {sock : SockPath} {f : SocketFile} {n : ℕ} {s : Finder} (h : s.lookupOf sock = none) :
    ConnectedOnce sock f n s ↔ Settled sock f n s := by
  rw [ConnectedOnce, h]

/-- a lookup of another socket touches neither -/
theorem settled_other {sock : SockPath} {f : SocketFile} {n : ℕ} {s : Finder} (h : Settled sock f n s) {p : SocketPass}
    {id : VmId} (hne : p.sockPath id ≠ sock) (answer : ConnectAnswer) (l : Lookup) :
    Settled sock f n (s.lookupStep p id answer l) ∧ (s.lookupStep p id answer l).lookupOf sock = none := by
  have hdone : ∀ t : Finder, t.cache sock = s.cache sock → t.connected.count sock = s.connected.count sock →
      (t.pass = some { p with entry := none } ∨ (∃ l', t.pass = some { p with entry := some (id, l') }) ∨
        ∃ pid, t.pass = (s.found p id pid).pass) → Settled sock f n t ∧ t.lookupOf sock = none := by
    intro t hcache hcount hpass
    refine ⟨by rwa [Settled, hcache, hcount], ?_⟩
    rcases hpass with hpass | ⟨l', hpass⟩ | ⟨pid, hpass⟩
    · simp [Finder.lookupOf, hpass]
    · have hne' : ¬ SocketPass.sockPath { p with entry := some (id, l') } id = sock := hne
      simp [Finder.lookupOf, hpass, hne']
    · simp [Finder.lookupOf, hpass, Finder.found]
  cases l with
  | metadata =>
    simp only [Finder.lookupStep]
    split
    · exact hdone _ rfl rfl (Or.inl rfl)
    · exact hdone _ rfl rfl (Or.inr (Or.inl ⟨_, rfl⟩))
  | cached dev ino =>
    simp only [Finder.lookupStep]
    split
    · exact hdone _ rfl rfl (Or.inr (Or.inl ⟨_, rfl⟩))
    · split_ifs
      · exact hdone _ rfl rfl (Or.inr (Or.inr ⟨_, rfl⟩))
      · exact hdone _ rfl rfl (Or.inr (Or.inl ⟨_, rfl⟩))
  | connect dev ino =>
    simp only [Finder.lookupStep]
    split
    · exact hdone _ rfl rfl (Or.inl rfl)
    · exact hdone _ rfl (List.count_cons_of_ne hne) (Or.inr (Or.inl ⟨_, rfl⟩))
  | insert dev ino pid =>
    simp only [Finder.lookupStep]
    split
    · exact hdone _ rfl rfl (Or.inr (Or.inr ⟨_, rfl⟩))
    · exact hdone _ (Function.update_of_ne hne.symm _ _) rfl (Or.inr (Or.inr ⟨_, rfl⟩))

/-- a step of a lookup of the socket -/
theorem connectedOnce_lookup {f : SocketFile} {n : ℕ} {s : Finder} {p : SocketPass} {id : VmId} {l : Lookup}
    (hpass : s.pass = some p) (hentry : p.entry = some (id, l)) (h : ConnectedOnce (p.sockPath id) f n s)
    (hfile : s.host.files (p.sockPath id) = some f) (halive : s.host.Alive f.owner) (answer : ConnectAnswer) :
    ConnectedOnce (p.sockPath id) f n (s.lookupStep p id answer l) := by
  have hfound : ∀ pid, ConnectedOnce (p.sockPath id) f n (s.found p id pid) ↔ Settled (p.sockPath id) f n s := by
    intro pid
    rw [connectedOnce_of_none (by simp [Finder.lookupOf, Finder.found])]
    rfl
  have hon : ∀ l', (s.goOn p id l').lookupOf (p.sockPath id) = some l' := by
    intro l'
    have hself : SocketPass.sockPath { p with entry := some (id, l') } id = p.sockPath id := rfl
    simp [Finder.lookupOf, Finder.goOn, hself]
  rw [ConnectedOnce, Finder.lookupOf_entry _ hpass hentry, if_pos rfl] at h
  cases l with
  | metadata =>
    simp only [Finder.lookupStep, hfile]
    rw [ConnectedOnce, hon]
    exact ⟨rfl, rfl, h⟩
  | cached dev ino =>
    obtain ⟨rfl, rfl, hsettled⟩ := h
    simp only [Finder.lookupStep]
    split
    · rename_i hc
      rw [ConnectedOnce, hon]
      refine ⟨rfl, rfl, ?_⟩
      rcases hsettled with hle | ⟨hcache, -⟩
      · exact hle
      · rw [hc] at hcache
        cases hcache
    · rename_i c hc
      split_ifs with hhit
      · exact (hfound _).2 hsettled
      · rw [ConnectedOnce, hon]
        refine ⟨rfl, rfl, ?_⟩
        rcases hsettled with hle | ⟨hcache, -⟩
        · exact hle
        · -- the peer is known, and its process is there
          rw [hc, Option.some.injEq] at hcache
          subst hcache
          exact absurd ⟨rfl, rfl, halive⟩ hhit
  | connect dev ino =>
    obtain ⟨rfl, rfl, hle⟩ := h
    simp only [Finder.lookupStep]
    split
    · rw [connectedOnce_of_none (by simp [Finder.lookupOf, Finder.skip])]
      exact Or.inl hle
    · rename_i pid hc
      obtain ⟨f', hfile', -, hpid⟩ := connected_peer hc
      have heq : f = f' := Option.some.inj (hfile.symm.trans hfile')
      have hl : Finder.lookupOf
          { s.goOn p id (.insert f.dev f.ino pid) with connected := p.sockPath id :: s.connected } (p.sockPath id) =
            some (.insert f.dev f.ino pid) := hon _
      rw [ConnectedOnce, hl]
      refine ⟨rfl, rfl, by rw [← hpid, heq], ?_⟩
      rw [List.count_cons_self]
      omega
  | insert dev ino pid =>
    obtain ⟨rfl, rfl, rfl, hle⟩ := h
    have hstart : s.host.processes f.owner.pid = some f.owner.startTime := halive
    simp only [Finder.lookupStep, hstart]
    rw [connectedOnce_of_none (by simp [Finder.lookupOf, Finder.found])]
    exact Or.inr ⟨Function.update_self _ _ _, hle⟩

theorem connectedOnce_step {sock : SockPath} {f : SocketFile} {n : ℕ} {s : Finder} {e : FinderEvent}
    (h : ConnectedOnce sock f n s) (hstays : Stays sock f s e) : ConnectedOnce sock f n (s.step e) := by
  have hsettled : (∀ p ∈ s.pass, p.entry = none) → Settled sock f n s := fun hnone =>
    (connectedOnce_of_none (Finder.lookupOf_eq_none hnone)).1 h
  have hpassed : ∀ {p : SocketPass}, s.pass = some p → p.entry = none → ∀ q ∈ s.pass, q.entry = none := by
    intro p hpass hentry q hq
    rw [hpass] at hq
    rwa [← Option.some.inj hq]
  have hstep := s.steps e
  generalize s.step e = t at hstep
  cases hstep with
  | host | unreadable | idle => exact h
  | began hpass dir socketName =>
    rw [connectedOnce_of_none (by simp [Finder.lookupOf])]
    exact hsettled (by simp [hpass])
  | failed hpass hentry =>
    rw [connectedOnce_of_none (by simp [Finder.lookupOf])]
    exact hsettled (hpassed hpass hentry)
  | @ended p hpass hentry =>
    rw [connectedOnce_of_none (by simp [Finder.lookupOf])]
    rcases hsettled (hpassed hpass hentry) with hle | ⟨hcache, hle⟩
    · exact Or.inl hle
    · refine Or.inr ⟨?_, hle⟩
      -- the pass has seen the socket if it is in its directory
      have hkept := hstays.seen rfl p (by rw [hpass]; rfl)
      simp only [Finder.retain, hkept, Bool.false_eq_true, if_false]
      exact hcache
  | @entered p hpass hentry id =>
    have hnow := hsettled (hpassed hpass hentry)
    have hl : (s.goOn p id .metadata).lookupOf sock = none ∨ (s.goOn p id .metadata).lookupOf sock = some .metadata := by
      rw [Finder.lookupOf_entry sock rfl rfl]
      split_ifs
      · exact Or.inr rfl
      · exact Or.inl rfl
    rcases hl with hl | hl
    · rw [ConnectedOnce, hl]
      exact hnow
    · rw [ConnectedOnce, hl]
      exact hnow
  | @looked p id l hpass hentry answer =>
    by_cases heq : p.sockPath id = sock
    · subst heq
      exact connectedOnce_lookup hpass hentry h hstays.file hstays.alive answer
    · have hnone : s.lookupOf sock = none := by
        rw [Finder.lookupOf_entry sock hpass hentry, if_neg heq]
      obtain ⟨hother, hl⟩ := settled_other ((connectedOnce_of_none hnone).1 h) heq answer l
      exact (connectedOnce_of_none hl).2 hother

/-- a socket that stays, and whose process stays, is connected to once at most, whatever else there is and however often
passes look at it -/
theorem connected_once (sock : SockPath) (f : SocketFile) (s : Finder) (hs : s.lookupOf sock = none)
    (events : List FinderEvent) (hstays : Core.Along Finder.step (Stays sock f) s events) :
    (Core.run Finder.step s events).connected.count sock ≤ s.connected.count sock + 1 := by
  have hinitial : ConnectedOnce sock f (s.connected.count sock) s :=
    (connectedOnce_of_none hs).2 (Or.inl le_rfl)
  exact (Core.run_inv (ConnectedOnce sock f (s.connected.count sock)) (fun _ _ h he => connectedOnce_step h he) hinitial
    hstays).count_le

/-- two passes, in the first of which another VM's socket is busy -/
theorem connected_once_twice :
    let file : SocketFile := ⟨1, 40, ⟨7, 0⟩⟩
    let s : Finder := { host := { clock := 1, processes := fun pid => if pid = 7 then some 0 else none,
                                  files := fun path => if path.getLast? = some "ctl" then some file else none } }
    let enter (id : String) : FinderEvent := .nextEntry (.ok (some ⟨some true, some id⟩))
    let events : List FinderEvent :=
      [.readDir ["run"] "ctl" true, enter "vm", .lookup .accepted, .lookup .accepted, .lookup .accepted, .lookup .accepted,
        enter "other", .lookup .accepted, .lookup .accepted, .lookup .busy, .nextEntry (.ok none),
        .readDir ["run"] "ctl" true, enter "other", .lookup .accepted, .lookup .accepted, .lookup .accepted,
        .lookup .accepted, enter "vm", .lookup .accepted, .lookup .accepted, .nextEntry (.ok none)]
    (Core.run Finder.step s events).connected.count ["run", "vm", "ctl"] ≤ 1 := by
  intro file s enter events
  exact connected_once ["run", "vm", "ctl"] file s rfl events (by decide +kernel)

end IoThreadController
