/-
What the dashboard asks the daemon for.

- `edit_threadsPrompt`, `PromptSince`: an open prompt is the text and the sticky box that the keys since its opening have
  left.
- `shownBy_step`: the counts on the screen are those of the latest replies, and a prompt for a thread count has been opened
  for a VM that the operator had chosen, and has not been closed since.
- `calls_asked_for`: so every call is for a VM that was focused and shown to the operator, with the count and the sticky flag
  that the keys say.
-/
import IoThreadController.Dashboard.Screen

namespace IoThreadController

/-! ## The text of a prompt -/

/-- a key may flip the sticky flag of a prompt, and changes nothing else of what the prompt is for -/
theorem edit_kind (p : InputPrompt) (k : KeyCode) : (p.edit k).kind = p.kind ∨
    ∃ vmId current sticky, p.kind = .setThreads vmId current sticky ∧
      (p.edit k).kind = .setThreads vmId current !sticky := by
  have htab : (p.edit .tab).kind = p.kind ∨ ∃ vmId current sticky, p.kind = .setThreads vmId current sticky ∧
      (p.edit .tab).kind = .setThreads vmId current !sticky := by
    rcases p with ⟨_ | plot | ⟨vmId, current, sticky⟩, buffer⟩
    · exact Or.inl rfl
    · exact Or.inl rfl
    · exact Or.inr ⟨vmId, current, sticky, rfl, rfl⟩
  cases k with
  | tab => exact htab
  | char c =>
    by_cases hspace : c = ' '
    · subst hspace
      exact htab
    · unfold InputPrompt.edit
      split
      all_goals first | exact Or.inl rfl | simp_all
      split_ifs <;> exact Or.inl rfl
  | _ => exact Or.inl rfl

/-- the keys that flip the sticky box -/
def flipsSticky (k : KeyCode) : Bool := k = .tab ∨ k = .char ' '

/-- what a key does to the text of a thread count -/
def typeKey (text : List Char) : KeyCode → List Char
  | .backspace => text.dropLast
  | .char c => if c.isDigit ∧ text.length < 12 then text ++ [c] else text
  | _ => text

/-- the prompt for the thread count of a VM, as the keys since its opening have left it -/
def threadsPrompt (vm : VmState) (sticky : Bool) (keys : List KeyCode) : InputPrompt where
  kind := .setThreads vm.id vm.shownThreadCount (sticky ^^ decide (keys.countP flipsSticky % 2 = 1))
  buffer := keys.foldl typeKey (Nat.toDigits 10 vm.shownThreadCount)

theorem edit_threadsPrompt (vm : VmState) (sticky : Bool) (keys : List KeyCode) (k : KeyCode) :
    (threadsPrompt vm sticky keys).edit k = threadsPrompt vm sticky (keys ++ [k]) := by
  have hflip : ∀ n, (sticky ^^ decide ((n + 1) % 2 = 1)) = !(sticky ^^ decide (n % 2 = 1)) := by
    intro n
    rcases Nat.mod_two_eq_zero_or_one n with hn | hn <;> cases sticky <;> simp [Nat.add_mod, hn]
  unfold threadsPrompt
  rw [List.foldl_append, List.countP_append]
  cases k with
  | tab => simp [InputPrompt.edit, flipsSticky, typeKey, hflip]
  | char c =>
    by_cases hspace : c = ' '
    · subst hspace
      simp [InputPrompt.edit, flipsSticky, typeKey, hflip]
    · have hedit : ∀ p : InputPrompt, p.edit (.char c) =
          if (c.isDigit || (p.kind.takesPoint && decide (c = '.') && decide ('.' ∉ p.buffer))) ∧ p.buffer.length < 12 then
            { p with buffer := p.buffer ++ [c] }
          else p := by
        intro p
        unfold InputPrompt.edit
        split
        all_goals first | rfl | simp_all
      rw [hedit]
      simp only [InputPromptKind.takesPoint, Bool.false_and, Bool.or_false, List.foldl_cons, List.foldl_nil, typeKey]
      split_ifs <;> simp [flipsSticky, hspace]
  | _ => simp [InputPrompt.edit, flipsSticky, typeKey]

/-! ## What the operator has been shown -/

/-- the replies whose samples are recorded -/
def recordedReplies (x : Screen × ScreenTrace) : List SnapshotPayload :=
  match x.1.sampler with
  | .recording _ _ => (replies x.2).tail
  | .sleeping | .polling _ => replies x.2

/-- the thread count in the latest reply that lists the VM -/
def latestCount (history : List SnapshotPayload) (id : VmId) : Option ℕ :=
  history.findSome? fun p => (p.vms.reverse.find? fun d => d.id = id).map (·.threadCount)

def keysOf (trace : ScreenTrace) : List KeyCode :=
  trace.reverse.filterMap fun x => match x.2 with
    | .key k _ => some k
    | _ => none

/-- the samples of a reply that lists the VM for the first time are not recorded yet -/
def Arriving (s : Screen) (id : VmId) : Prop := ∃ elapsed p, s.sampler = .recording elapsed p ∧ id ∈ p.ids

/-- a VM that the operator has chosen at the table, with the count that the screen shows -/
structure Aimed (select : List String) (x : Screen × ScreenTrace) (vm : VmState) : Prop where
  table : x.1.AtTable
  focused : x.1.ui.focused = some (.vm vm.id)
  tracked : vm ∈ x.1.tui.vms
  selected : selected select vm.id = true
  shown : ∃ p ∈ (replies x.2).take (missingStreakDrop + 1), vm.id ∈ p.ids
  count : latestCount (recordedReplies x) vm.id = some vm.shownThreadCount ∨ Arriving x.1 vm.id ∧ vm.shownThreadCount = 0

/-- the prompt for a VM's thread count was opened, with that sticky flag, when the operator had chosen the VM; it has been
open ever since, and is at every moment what the keys until then have left of it -/
structure PromptSince (select : List String) (x : Screen × ScreenTrace) (vm : VmState) (sticky : Bool)
    (since : ScreenTrace) : Prop where
  opened : ∃ s k now before, x.2 = since ++ (s, .key k now) :: before ∧ hotkey k = some .setThreads ∧
    Aimed select (s, before) vm ∧ s.ui.stickyMode = sticky
  kept : ∀ s e before, (s, e) :: before <:+ since → s.ui.inputPrompt = some (threadsPrompt vm sticky (keysOf before))
  now : x.1.ui.inputPrompt = some (threadsPrompt vm sticky (keysOf since))

/-- every prompt for a thread count has been opened for a VM that the operator had chosen -/
def PromptTraced (select : List String) (x : Screen × ScreenTrace) : Prop :=
  ∀ vmId current sticky buffer, x.1.ui.inputPrompt = some ⟨.setThreads vmId current sticky, buffer⟩ →
    ∃ vm armed since, PromptSince select x vm armed since

/-- the screen shows what the replies of the run say -/
structure ShownBy (select : List String) (x : Screen × ScreenTrace) : Prop where
  sound : x.1.Sound
  roster : RosterOf select (x.1.tui, replies x.2)
  recording : ∀ elapsed p, x.1.sampler = .recording elapsed p → ∃ history, replies x.2 = p :: history
  count : ∀ vm ∈ x.1.tui.vms,
    (∃ n, vm.lastThreadCount = some n ∧ latestCount (recordedReplies x) vm.id = some n) ∨
      Arriving x.1 vm.id ∧ vm.lastThreadCount = none
  small : ∀ p ∈ replies x.2, ∀ d ∈ p.vms, d.threadCount < 2 ^ 32
  prompt : PromptTraced select x

/-- a reply lists no VM twice, and its counts are `u32` -/
def ScreenEvent.WellFormed : ScreenEvent → Prop
  | .reply payload => payload.ids.Nodup ∧ ∀ d ∈ payload.vms, d.threadCount < 2 ^ 32
  | _ => True

/-! ### One step -/

theorem keysOf_cons_key (s : Screen) (k : KeyCode) (now : ℕ) (trace : ScreenTrace) :
    keysOf ((s, .key k now) :: trace) = keysOf trace ++ [k] := by
  simp [keysOf]

theorem keysOf_cons_other {s : Screen} {e : ScreenEvent} (h : ∀ k now, e ≠ .key k now) (trace : ScreenTrace) :
    keysOf ((s, e) :: trace) = keysOf trace := by
  cases e with
  | key k now => exact absurd rfl (h k now)
  | _ => simp [keysOf]

section
variable {select : List String} {x : Screen × ScreenTrace}

/-- a hotkey that needs a VM finds one that has been shown -/
theorem aimed_of_focused (h : ShownBy select x) (ht : x.1.AtTable) {vm : VmState} (hvm : x.1.focusedVm = some vm) :
    Aimed select x vm := by
  unfold Screen.focusedVm at hvm
  split at hvm
  · rename_i id hfocused
    have htracked := List.mem_of_find?_eq_some hvm
    have hid : vm.id = id := by simpa using List.find?_some hvm
    have hmem : vm.id ∈ x.1.tui.ids := List.mem_map_of_mem htracked
    rw [← Tui.age_isSome, h.roster.age, Core.age_isSome, exists_listed] at hmem
    refine ⟨ht, by rw [hfocused, hid], htracked, hmem.1, hmem.2, ?_⟩
    unfold VmState.shownThreadCount
    rcases h.count vm htracked with ⟨n, hlast, hlatest⟩ | ⟨harriving, hlast⟩
    · exact Or.inl (by rw [hlast, hlatest, Option.getD_some])
    · exact Or.inr ⟨harriving, by rw [hlast, Option.getD_none]⟩
  · cases hvm
  · cases hvm

/-- of the hotkeys only one opens a prompt for a thread count -/
theorem perform_prompt {s : Screen} (hs : s.ui.inputPrompt = none) (now : ℕ) {key : Hotkey} {vmId : VmId} {current : ℕ}
    {sticky : Bool} {buffer : List Char}
    (h : (s.perform now key).ui.inputPrompt = some ⟨.setThreads vmId current sticky, buffer⟩) :
    key = .setThreads ∧ ∃ vm, s.focusedVm = some vm ∧
      (⟨.setThreads vmId current sticky, buffer⟩ : InputPrompt) = threadsPrompt vm s.ui.stickyMode [] := by
  cases key with
  | setThreads =>
    refine ⟨rfl, ?_⟩
    simp only [Screen.perform, Screen.openSetThreadsPrompt] at h
    split at h
    · rw [hs] at h
      cases h
    · rename_i vm hvm
      rw [Screen.withUi_ui, Option.some.injEq] at h
      exact ⟨vm, hvm, by simp [← h, threadsPrompt]⟩
  | undo | move _ | nudge _ | yMax =>
    simp only [Screen.perform, Screen.moveFocus, Screen.nudgeThreadCount, Screen.openYmaxPrompt,
      Screen.requestSetThreadCount] at h
    repeat' split at h
    all_goals simp [hs] at h
  | plot k =>
    simp only [Screen.perform, UiState.togglePlot] at h
    split_ifs at h <;> simp [hs] at h
  | _ => simp [Screen.perform, Screen.openRefreshPrompt, UiState.cycleTheme, UiState.toggleAggregate, Screen.togglePause,
      Screen.resetAutoscale, hs] at h

/-- a step that leaves the prompt open, as the keys say -/
theorem PromptSince.step {vm : VmState} {sticky : Bool} {since : ScreenTrace} (h : PromptSince select x vm sticky since)
    {s : Screen} {e : ScreenEvent}
    (hs : s.ui.inputPrompt = some (threadsPrompt vm sticky (keysOf ((x.1, e) :: since)))) :
    PromptSince select (s, (x.1, e) :: x.2) vm sticky ((x.1, e) :: since) := by
  obtain ⟨s0, k, now, before, htrace, hhotkey, haimed, hsticky⟩ := h.opened
  refine ⟨⟨s0, k, now, before, by rw [htrace]; rfl, hhotkey, haimed, hsticky⟩, ?_, hs⟩
  intro t e' before' hsuffix
  rcases List.suffix_cons_iff.1 hsuffix with heq | hsuffix
  · obtain ⟨hfirst, rfl⟩ := List.cons.inj heq
    have ht : t = x.1 := congrArg Prod.fst hfirst
    rw [ht]
    exact h.now
  · exact h.kept t e' before' hsuffix

theorem promptTraced_other (h : PromptTraced select x) {s : Screen} {e : ScreenEvent} (hkey : ∀ k now, e ≠ .key k now)
    (hs : s.ui.inputPrompt = x.1.ui.inputPrompt) : PromptTraced select (s, (x.1, e) :: x.2) := by
  intro vmId current sticky buffer hp
  dsimp only at hp
  rw [hs] at hp
  obtain ⟨vm, armed, since, hsince⟩ := h vmId current sticky buffer hp
  refine ⟨vm, armed, (x.1, e) :: since, hsince.step ?_⟩
  rw [keysOf_cons_other hkey, hs, hsince.now]

theorem promptTraced_key (h : ShownBy select x) (k : KeyCode) (now : ℕ) :
    PromptTraced select (x.1.handleKey k now, (x.1, .key k now) :: x.2) := by
  -- an open prompt takes the key
  have hedited : ∀ s p, x.1.ui.inputPrompt = some p → s.ui.inputPrompt = some (p.edit k) →
      PromptTraced select (s, (x.1, .key k now) :: x.2) := by
    intro s p hp hs vmId current sticky buffer hopen
    dsimp only at hopen
    rw [hs, Option.some.injEq] at hopen
    have hkind : ∃ sticky', p.kind = .setThreads vmId current sticky' := by
      have hedit : (p.edit k).kind = .setThreads vmId current sticky := by rw [hopen]
      rcases edit_kind p k with hsame | ⟨vmId', current', sticky', hkind, hflip⟩
      · exact ⟨sticky, hsame ▸ hedit⟩
      · rw [hflip, InputPromptKind.setThreads.injEq] at hedit
        exact ⟨sticky', by rw [hkind, hedit.1, hedit.2.1]⟩
    obtain ⟨sticky', hkind⟩ := hkind
    have hp' : x.1.ui.inputPrompt = some ⟨.setThreads vmId current sticky', p.buffer⟩ := by
      rw [hp, ← hkind]
    obtain ⟨vm, armed, since, hsince⟩ := h.prompt _ _ _ _ hp'
    have hthreads : p = threadsPrompt vm armed (keysOf since) := Option.some.inj (hp.symm.trans hsince.now)
    refine ⟨vm, armed, (x.1, .key k now) :: since, hsince.step ?_⟩
    rw [keysOf_cons_key, ← edit_threadsPrompt, ← hthreads, hs]
  have hclosed : ∀ s, s.ui.inputPrompt = none → PromptTraced select (s, (x.1, .key k now) :: x.2) := by
    intro s hs vmId current sticky buffer hopen
    dsimp only at hopen
    rw [hs] at hopen
    cases hopen
  rcases x.1.handleKey_cases k now with ⟨hhelp, hs⟩ | ⟨p, -, hp, hs⟩ | ⟨cursor, -, hp, -, hs⟩ | ⟨ht, hs⟩
  · rw [hs]
    exact hclosed _ (h.sound.help hhelp).1
  · rw [hs]
    unfold Screen.handleInputPromptKey
    split
    · exact hclosed _ rfl
    · rcases x.1.commitInputPrompt_cases with hc | ⟨ns, hc⟩ | ⟨plot, v, -, hc⟩ | ⟨_, _, _, _, n, -, -, -, hc⟩
      · rw [hc]
        exact hedited _ p hp hp
      · rw [hc]
        exact hclosed _ rfl
      · rw [hc]
        exact hclosed _ rfl
      · rw [hc]
        exact hclosed _ rfl
    · exact hedited _ p hp (by rw [Screen.withUi_ui, hp]; rfl)
  · rw [hs]
    exact hclosed _ (by rw [(x.1.picker_frame cursor k).2.2, hp])
  · rw [hs]
    cases hkey : hotkey k with
    | none => exact hclosed _ ht.2.1
    | some key =>
      intro vmId current sticky buffer hopen
      obtain ⟨rfl, vm, hvm, hprompt⟩ := perform_prompt ht.2.1 now hopen
      refine ⟨vm, x.1.ui.stickyMode, [], ⟨x.1, k, now, x.2, rfl, hkey, aimed_of_focused h ht hvm, rfl⟩, ?_, ?_⟩
      · intro s e before hsuffix
        cases List.suffix_nil.1 hsuffix
      · exact hopen.trans (congrArg some hprompt)

theorem rosterOf_congr {s t : Tui} {history : List SnapshotPayload} (h : RosterOf select (s, history))
    (hids : t.ids = s.ids) (hstreak : t.missingStreak = s.missingStreak) : RosterOf select (t, history) := by
  refine ⟨⟨?_, ?_⟩, fun id => ?_⟩
  · rw [hids]
    exact h.tidy.sorted
  · rw [hids, hstreak]
    exact h.tidy.streak
  · rw [← h.age]
    simp only [Tui.age, hids, hstreak]

theorem resetAutoscale_ids (s : Screen) : s.resetAutoscale.tui.ids = s.tui.ids := by
  simp [Screen.resetAutoscale, Tui.ids]

theorem recordedReplies_congr {s : Screen} {trace : ScreenTrace} (hreplies : replies trace = replies x.2)
    (hphase : ∀ elapsed p, s.sampler = .recording elapsed p ↔ x.1.sampler = .recording elapsed p) :
    recordedReplies (s, trace) = recordedReplies x := by
  unfold recordedReplies
  rw [hreplies]
  cases hs : s.sampler with
  | recording elapsed p => rw [(hphase elapsed p).1 hs]
  | _ =>
    cases hx : x.1.sampler with
    | recording elapsed p =>
      have hrecording := (hphase elapsed p).2 hx
      rw [hs] at hrecording
      cases hrecording
    | _ => rfl

/-- a step that takes no reply and no samples, and of the VMs changes the plots at most -/
theorem shownBy_frame (h : ShownBy select x) {s : Screen} {e : ScreenEvent} (htaken : takenReply (x.1, e) = none)
    (hphase : ∀ elapsed p, s.sampler = .recording elapsed p ↔ x.1.sampler = .recording elapsed p)
    (hvms : s.tui.vms = x.1.tui.vms ∨ s.tui.vms = x.1.resetAutoscale.tui.vms)
    (hstreak : s.tui.missingStreak = x.1.tui.missingStreak) (hsound : s.Sound)
    (hprompt : PromptTraced select (s, (x.1, e) :: x.2)) : ShownBy select (s, (x.1, e) :: x.2) := by
  have hreplies := replies_cons_none htaken x.2
  have hrecorded : recordedReplies (s, (x.1, e) :: x.2) = recordedReplies x := recordedReplies_congr hreplies hphase
  refine ⟨hsound, ?_, ?_, ?_, ?_, hprompt⟩
  · rw [hreplies]
    refine rosterOf_congr h.roster ?_ hstreak
    rcases hvms with hvms | hvms
    · rw [Tui.ids, hvms, Tui.ids]
    · calc
        s.tui.ids = x.1.resetAutoscale.tui.ids := by rw [Tui.ids, hvms, Tui.ids]
        _ = x.1.tui.ids := resetAutoscale_ids x.1
  · intro elapsed p hrecording
    rw [hreplies]
    exact h.recording elapsed p ((hphase elapsed p).1 hrecording)
  · intro vm hvm
    -- the VM before, with its plot
    obtain ⟨vm', hvm', hid, hlast⟩ : ∃ vm' ∈ x.1.tui.vms, vm'.id = vm.id ∧ vm'.lastThreadCount = vm.lastThreadCount := by
      rcases hvms with hvms | hvms
      · exact ⟨vm, by rwa [← hvms], rfl, rfl⟩
      · dsimp only at hvm
        rw [hvms] at hvm
        obtain ⟨vm', hvm', rfl⟩ := List.mem_map.1 hvm
        exact ⟨vm', hvm', rfl, rfl⟩
    rw [hrecorded, ← hid, ← hlast]
    simpa only [Arriving, hphase] using h.count vm' hvm'
  · rw [hreplies]
    exact h.small

theorem shownBy_key (h : ShownBy select x) {k : KeyCode} {now : ℕ} (hsound : (x.1.handleKey k now).Sound) :
    ShownBy select (x.1.handleKey k now, (x.1, .key k now) :: x.2) := by
  have hframe := x.1.handleKey_frame k now
  refine shownBy_frame h rfl (by simp [hframe.sampler]) ?_ ?_ hsound (promptTraced_key h k now)
  · rcases hframe.still with ⟨htui, -⟩ | ⟨htui, -⟩
    · exact Or.inl (by rw [htui])
    · exact Or.inr (by rw [htui])
  · rcases hframe.still with ⟨htui, -⟩ | ⟨htui, -⟩
    · rw [htui]
    · rw [htui]
      rfl

/-- the reply that the sampler waits for -/
theorem shownBy_reply (h : ShownBy select x) {elapsed : ℕ} {p : SnapshotPayload} (hquit : x.1.quit = false)
    (hphase : x.1.sampler = .polling elapsed) (hw : ScreenEvent.WellFormed (.reply p)) :
    ShownBy select ({ x.1 with
      sampler := .recording elapsed p, tui := reconcileWithSnapshot select x.1.tui.healthy p },
      (x.1, .reply p) :: x.2) := by
  have hreplies : replies ((x.1, .reply p) :: x.2) = p :: replies x.2 := replies_cons_reply hquit hphase p x.2
  have hrecorded : recordedReplies x = replies x.2 := by
    simp only [recordedReplies, hphase]
  refine ⟨{ h.sound with quit := h.sound.quit }, ?_, ?_, ?_, ?_, ?_⟩
  · rw [hreplies]
    have hhealthy : RosterOf select (x.1.tui.healthy, replies x.2) := rosterOf_congr h.roster rfl rfl
    exact rosterOf_reconcile hhealthy hw.1
  · intro elapsed' p' hphase'
    cases hphase'
    exact ⟨replies x.2, hreplies⟩
  · intro vm hvm
    have hgrown : vm ∈ grown select x.1.tui.healthy p := by
      dsimp only at hvm
      rw [reconcile_eq] at hvm
      exact List.mem_of_mem_filter hvm
    simp only [recordedReplies, hreplies, List.tail_cons]
    rcases mem_grown_cases select _ _ hgrown with hold | ⟨-, hlisted, colorIdx, hnew⟩
    · refine Or.inl ?_
      rcases h.count vm hold with hcount | ⟨⟨elapsed', p', hphase', -⟩, -⟩
      · rwa [hrecorded] at hcount
      · rw [hphase] at hphase'
        cases hphase'
    · exact Or.inr ⟨⟨elapsed, p, rfl, (listed_iff.1 hlisted).2⟩, by rw [hnew]; rfl⟩
  · rw [hreplies]
    intro q hq
    rcases List.mem_cons.1 hq with rfl | hq
    · exact hw.2
    · exact h.small q hq
  · exact promptTraced_other h.prompt (by simp) rfl

/-- the samples of a reply -/
theorem shownBy_record (h : ShownBy select x) {elapsed : ℕ} {p : SnapshotPayload} {aggregate : List Sample}
    (hphase : x.1.sampler = .recording elapsed p) :
    ShownBy select ({ x.1 with
      sampler := .sleeping, tui := recordSamples x.1.tui (asSecs elapsed) p, aggregate },
      (x.1, .record) :: x.2) := by
  have hreplies : replies ((x.1, .record) :: x.2) = replies x.2 := replies_cons_none rfl x.2
  obtain ⟨history, hhistory⟩ := h.recording elapsed p hphase
  have hrecorded : recordedReplies x = history := by
    simp only [recordedReplies, hphase, hhistory, List.tail_cons]
  refine ⟨{ h.sound with quit := h.sound.quit }, ?_, by simp, ?_, ?_, ?_⟩
  · rw [hreplies]
    exact rosterOf_congr h.roster (recordSamples_ids _ _ _) rfl
  · intro vm' hvm'
    refine Or.inl ?_
    simp only [recordedReplies, hreplies, hhistory]
    obtain ⟨vm, hvm, hrecord⟩ := List.mem_map.1 hvm'
    cases hfind : p.vms.reverse.find? fun d => d.id = vm.id with
    | some dom =>
      rw [hfind] at hrecord
      subst hrecord
      exact ⟨dom.threadCount, rfl, by simp [latestCount, VmState.record, hfind]⟩
    | none =>
      rw [hfind] at hrecord
      subst hrecord
      have hlatest : latestCount (p :: history) vm.id = latestCount history vm.id := by
        simp [latestCount, hfind]
      rw [hlatest]
      rcases h.count vm hvm with hcount | ⟨⟨elapsed', p', hphase', hmem⟩, -⟩
      · rwa [hrecorded] at hcount
      · -- a VM that this reply has brought is in the reply
        rw [hphase] at hphase'
        cases hphase'
        obtain ⟨d, hd, hid⟩ := List.mem_map.1 hmem
        have hnone := List.find?_eq_none.1 hfind d (List.mem_reverse.2 hd)
        simp [hid] at hnone
  · rw [hreplies]
    exact h.small
  · exact promptTraced_other h.prompt (by simp) rfl

theorem shownBy_step (h : ShownBy select x) {e : ScreenEvent} (hw : e.WellFormed) :
    ShownBy select (Core.traced (Screen.step select) x e) := by
  have hsound : (x.1.step select e).Sound := Screen.sound_step select h.sound e
  change ShownBy select (x.1.step select e, (x.1, e) :: x.2)
  cases hquit : x.1.quit with
  | true =>
    -- nothing happens any more, and no prompt is open
    rw [Screen.step_of_quit select hquit]
    refine shownBy_frame h ?_ (fun _ _ => Iff.rfl) (Or.inl rfl) rfl h.sound ?_
    · cases e <;> simp [takenReply, hquit]
    · intro vmId current sticky buffer hp
      dsimp only at hp
      rw [(h.sound.quit hquit).2.1] at hp
      cases hp
  | false =>
    have hstep := Screen.steps select hquit e
    generalize x.1.step select e = s at hstep hsound
    cases hstep with
    | key k now => exact shownBy_key h hsound
    | wake now hphase _ =>
      exact shownBy_frame h rfl (by simp [hphase]) (Or.inl rfl) rfl hsound (promptTraced_other h.prompt (by simp) rfl)
    | fail error hphase =>
      exact shownBy_frame h rfl (by simp [hphase]) (Or.inl rfl) rfl hsound (promptTraced_other h.prompt (by simp) rfl)
    | reply p hphase => exact shownBy_reply h hquit hphase hw
    | record aggregate hphase => exact shownBy_record h hphase
    | idle hkey htaken =>
      exact shownBy_frame h htaken (fun _ _ => Iff.rfl) (Or.inl rfl) rfl hsound (promptTraced_other h.prompt hkey rfl)

/-! ## Calls -/

/-- a call that the keys say: a nudge of the chosen VM, or the number in the open prompt, which was opened for a chosen VM
and has not been closed since -/
def Asked (select : List String) (x : Screen × ScreenTrace) (k : KeyCode) (c : ThreadCountCall) : Prop :=
  (∃ vm delta, Aimed select x vm ∧ hotkey k = some (.nudge delta) ∧ (c.next : ℤ) = vm.shownThreadCount + delta ∧
    c = ⟨vm.id, vm.shownThreadCount, c.next, x.1.ui.stickyMode⟩) ∨
  (k = .enter ∧ x.1.ui.showHelp = false ∧ ∃ vm armed since, PromptSince select x vm armed since ∧
    c = ⟨vm.id, vm.shownThreadCount, c.next, armed ^^ decide ((keysOf since).countP flipsSticky % 2 = 1)⟩ ∧
    parseU32 (trim ((keysOf since).foldl typeKey (Nat.toDigits 10 vm.shownThreadCount))) = some c.next)

/-- a count that the screen shows is a `u32` -/
theorem shownThreadCount_lt (h : ShownBy select x) {vm : VmState} (hvm : vm ∈ x.1.tui.vms) :
    vm.shownThreadCount < 2 ^ 32 := by
  unfold VmState.shownThreadCount
  rcases h.count vm hvm with ⟨n, hlast, hlatest⟩ | ⟨-, hlast⟩
  · obtain ⟨p, hp, hfound⟩ := List.exists_of_findSome?_eq_some hlatest
    obtain ⟨d, hd, hcount⟩ := Option.map_eq_some_iff.1 hfound
    have hrecorded : p ∈ replies x.2 := by
      unfold recordedReplies at hp
      split at hp
      · exact List.mem_of_mem_tail hp
      · exact hp
      · exact hp
    rw [hlast, Option.getD_some, ← hcount]
    exact h.small p hrecorded d (List.mem_reverse.1 (List.mem_of_find?_eq_some hd))
  · rw [hlast]
    decide

theorem nudged_next {n : ℕ} {delta next : ℤ} (hn : n < 2 ^ 32) (hdelta : delta = 1 ∨ delta = -1)
    (hnext : next = asI32 ((asI32 n + delta) % 2 ^ 32).toNat) (hpos : 1 ≤ next) : next = n + delta ∧ next < 2 ^ 32 := by
  unfold asI32 at hnext
  rcases hdelta with rfl | rfl
  · split_ifs at hnext <;> omega
  · split_ifs at hnext <;> omega

theorem hotkey_nudge {k : KeyCode} {delta : ℤ} (h : hotkey k = some (.nudge delta)) : delta = 1 ∨ delta = -1 := by
  unfold hotkey at h
  split at h
  all_goals simp_all

/-- a key that sends a call has been asked to -/
theorem asked_of_sent (h : ShownBy select x) (k : KeyCode) (now : ℕ) : (x.1.handleKey k now).sent = x.1.sent ∨
    ∃ c, (x.1.handleKey k now).sent = x.1.sent ++ [c] ∧ 1 ≤ c.next ∧ c.next < 2 ^ 32 ∧ Asked select x k c := by
  rcases x.1.handleKey_sent k now with hsent | ⟨c, hsent, ⟨vm, delta, hnudged⟩ | ⟨buffer, hhelp, hcommitted⟩⟩
  · exact Or.inl hsent
  · have haimed := aimed_of_focused h hnudged.table hnudged.focused
    have hpos : (1 : ℤ) ≤ c.next := by exact_mod_cast hnudged.pos
    obtain ⟨hnext, hlt⟩ :=
      nudged_next (shownThreadCount_lt h haimed.tracked) (hotkey_nudge hnudged.key) hnudged.next hpos
    have hasked : Asked select x k c := Or.inl ⟨vm, delta, haimed, hnudged.key, hnext, hnudged.call⟩
    exact Or.inr ⟨c, hsent, hnudged.pos, by exact_mod_cast hlt, hasked⟩
  · obtain ⟨vm, armed, since, hsince⟩ := h.prompt _ _ _ _ hcommitted.prompt
    have hprompt := Option.some.inj (hcommitted.prompt.symm.trans hsince.now)
    rw [threadsPrompt, InputPrompt.mk.injEq, InputPromptKind.setThreads.injEq] at hprompt
    obtain ⟨⟨hid, hcur, hsticky⟩, hbuffer⟩ := hprompt
    have htyped := hcommitted.typed
    rw [hbuffer] at htyped
    have hlt : c.next < 2 ^ 32 := by
      unfold parseU32 at htyped
      simpa using (Option.filter_eq_some_iff.1 htyped).2
    refine Or.inr ⟨c, hsent, hcommitted.pos, hlt, Or.inr ⟨hcommitted.key, hhelp, vm, armed, since, hsince, ?_, htyped⟩⟩
    rw [← hid, ← hcur, ← hsticky]

end

theorem shownBy_start (select : List String) (perfMetric : PerfMetric) (refreshSecs : ℚ) :
    ShownBy select (Screen.start perfMetric refreshSecs, []) := by
  refine ⟨Screen.sound_start perfMetric refreshSecs, rosterOf_initial select, nofun, nofun, nofun, ?_⟩
  intro vmId current sticky buffer hp
  cases hp

/-- in every run only keys send calls, one at a time, and each is one that the keys have asked for: of a VM that the
operator had focused and that one of the latest four replies had shown, one thread more or less than shown or the number
typed, and sticky as the screen said -/
theorem calls_asked_for (select : List String) (perfMetric : PerfMetric) (refreshSecs : ℚ) (events : List ScreenEvent)
    (hw : ∀ e ∈ events, e.WellFormed) :
    Core.Along (Core.traced (Screen.step select))
      (fun x e => (x.1.step select e).sent = x.1.sent ∨
        ∃ k now c, e = .key k now ∧ (x.1.step select e).sent = x.1.sent ++ [c] ∧ 1 ≤ c.next ∧ c.next < 2 ^ 32 ∧
          Asked select x k c)
      (Screen.start perfMetric refreshSecs, []) events := by
  have hwell : Core.Along (Core.traced (Screen.step select)) (fun _ e => e.WellFormed)
      (Screen.start perfMetric refreshSecs, []) events := Core.along_of_forall _ _ hw
  refine Core.along_of_inv (ShownBy select) (fun _ _ h he => shownBy_step h he) ?_
    (shownBy_start select perfMetric refreshSecs) hwell
  intro x e h _
  cases hquit : x.1.quit with
  | true => exact Or.inl (by rw [Screen.step_of_quit select hquit])
  | false =>
    have hstep := Screen.steps select hquit e
    generalize x.1.step select e = s at hstep
    cases hstep with
    | key k now =>
      rcases asked_of_sent h k now with hsent | ⟨c, hsent, hpos, hlt, hasked⟩
      · exact Or.inl hsent
      · exact Or.inr ⟨k, now, c, rfl, hsent, hpos, hlt, hasked⟩
    | _ => exact Or.inl rfl

/-- a nudge of the second of two VMs, and then a number typed for it with the sticky box ticked -/
theorem calls_asked_for_second :
    let events : List ScreenEvent :=
      [.wake 0, .reply ⟨[{ id := "a", threadCount := 2 }, { id := "b", threadCount := 4 }]⟩, .record, .key .down 1,
        .key (.char '+') 2, .key (.char 'n') 3, .key .tab 4, .key .backspace 5, .wake 6, .key (.char '7') 7, .key .enter 8]
    (Core.run (Screen.step []) (Screen.start .iops 1) events).sent = [⟨"b", 4, 5, false⟩, ⟨"b", 4, 7, true⟩] ∧
      Core.Along (Core.traced (Screen.step []))
        (fun x e => (x.1.step [] e).sent = x.1.sent ∨
          ∃ k now c, e = .key k now ∧ (x.1.step [] e).sent = x.1.sent ++ [c] ∧ 1 ≤ c.next ∧ c.next < 2 ^ 32 ∧
            Asked [] x k c)
        (Screen.start .iops 1, []) events := by
  intro events
  have hw : ∀ e ∈ events, e.WellFormed := by
    intro e he
    simp only [events, List.mem_cons, List.not_mem_nil, or_false] at he
    rcases he with rfl | rfl | rfl | rfl | rfl | rfl | rfl | rfl | rfl | rfl | rfl
    all_goals trivial
  exact ⟨by decide +kernel, calls_asked_for [] .iops 1 events hw⟩

end IoThreadController
