/-
The screen of the dashboard under the operator's keys, with the sampler at work between any two of them.

- `screen_sound`: at most one modal is open, some plot and the id column are always there, the total is focused only while it
  may be drawn, and the screen and the sampler agree on the pause.
- `handleKey_frame`, `handleKey_sent`: what a key leaves alone, and the two ways in which it sends a call.
- `pause_holds`: while the screen is paused at most one more reply comes in, the one that was on its way; otherwise the
  roster and its samples stay as they are, but for `z` and for a pass that was recording already.
- `focus_follows_moves`: any moves add up, modulo the rows, also while the sampler records.
-/
import IoThreadController.Core.Run
import IoThreadController.Dashboard.Roster
import IoThreadController.Model.Screen

namespace IoThreadController

/-! ## Traces -/

/-- the screens and events of a run, the latest first -/
abbrev ScreenTrace := List (Screen × ScreenEvent)

/-- the reply that a step takes -/
def takenReply : Screen × ScreenEvent → Option SnapshotPayload
  | (s, .reply payload) =>
    match s.quit, s.sampler with
    | false, .polling _ => some payload
    | _, _ => none
  | _ => none

def replies (trace : ScreenTrace) : List SnapshotPayload := trace.filterMap takenReply

theorem replies_cons_none {y : Screen × ScreenEvent} (h : takenReply y = none) (trace : ScreenTrace) :
    replies (y :: trace) = replies trace := by
  simp [replies, h]

/-- what an event does to a live screen -/
inductive Screen.Steps (select : List String) (s : Screen) : ScreenEvent → Screen → Prop where
  | key (k : KeyCode) (now : ℕ) : Steps select s (.key k now) (s.handleKey k now)
  | wake (now : ℕ) (hphase : s.sampler = .sleeping) (hpaused : s.paused = false) :
      Steps select s (.wake now) { s with sampler := .polling now }
  | fail (error : String) {elapsed : ℕ} (hphase : s.sampler = .polling elapsed) :
      Steps select s (.fail error) { s with sampler := .sleeping, tui := samplerPass select s.tui (.failed error) }
  | reply (p : SnapshotPayload) {elapsed : ℕ} (hphase : s.sampler = .polling elapsed) :
      Steps select s (.reply p)
        { s with sampler := .recording elapsed p, tui := reconcileWithSnapshot select s.tui.healthy p }
  | record {elapsed : ℕ} {p : SnapshotPayload} (aggregate : List Sample) (hphase : s.sampler = .recording elapsed p) :
      Steps select s .record { s with sampler := .sleeping, tui := recordSamples s.tui (asSecs elapsed) p, aggregate }
  | idle {e : ScreenEvent} (hkey : ∀ k now, e ≠ .key k now) (htaken : takenReply (s, e) = none) : Steps select s e s

theorem Screen.steps (select : List String) {s : Screen} (hquit : s.quit = false) (e : ScreenEvent) :
    s.Steps select e (s.step select e) := by
  unfold step
  rw [if_neg (by simp [hquit])]
  split
  · exact .key _ _
  · rename_i now hphase
    split_ifs with hpaused
    · exact .idle nofun rfl
    · exact .wake now hphase (by simpa using hpaused)
  · rename_i hphase
    exact .fail _ hphase
  · rename_i hphase
    exact .reply _ hphase
  · rename_i hphase
    exact .record _ hphase
  · rename_i e _ _ hkey _ _ hreply _
    refine .idle hkey ?_
    cases e with
    | reply p =>
      cases hphase : s.sampler with
      | polling elapsed => exact absurd hphase (hreply p elapsed rfl)
      | _ => simp [takenReply, hphase]
    | _ => rfl

theorem Screen.step_of_quit (select : List String) {s : Screen} (hquit : s.quit = true) (e : ScreenEvent) :
    s.step select e = s := by
  simp [step, hquit]

/-! ## Modes -/

namespace Screen

/-- no modal is open, so that keys reach the table of hotkeys -/
def AtTable (s : Screen) : Prop := s.ui.showHelp = false ∧ s.ui.inputPrompt = none ∧ s.ui.columnPicker = none

/-- what every screen keeps -/
structure Sound (s : Screen) : Prop where
  help : s.ui.showHelp = true → s.ui.inputPrompt = none ∧ s.ui.columnPicker = none
  picker : ∀ cursor ∈ s.ui.columnPicker, s.ui.inputPrompt = none ∧ cursor < DashColumn.all.length
  plots : s.ui.activePlots ≠ [] ∧ s.ui.activePlots.Nodup
  columns : DashColumn.id ∈ s.ui.columns
  total : s.ui.focused = some .total → s.ui.showAggregate = true
  paused : s.ui.paused = s.paused ∧ s.ui.pausedTFrozen.isSome = s.paused
  theme : s.ui.themeIdx < themeCount
  yMax : ∀ plot, ∀ v ∈ s.ui.yMaxOverride plot, 0 < v
  quit : s.quit = true → s.AtTable

/-- which of the four modes takes the key -/
theorem handleKey_cases (s : Screen) (k : KeyCode) (now : ℕ) :
    (s.ui.showHelp = true ∧ s.handleKey k now = s.withUi { s.ui with showHelp := false }) ∨
      (∃ p, s.ui.showHelp = false ∧ s.ui.inputPrompt = some p ∧ s.handleKey k now = s.handleInputPromptKey k) ∨
      (∃ cursor, s.ui.showHelp = false ∧ s.ui.inputPrompt = none ∧ s.ui.columnPicker = some cursor ∧
        s.handleKey k now = s.handleColumnPickerKey cursor k) ∨
      (s.AtTable ∧ s.handleKey k now = (hotkey k).elim s (s.perform now)) := by
  unfold handleKey
  cases hhelp : s.ui.showHelp with
  | true => exact Or.inl ⟨rfl, by simp⟩
  | false =>
    cases hprompt : s.ui.inputPrompt with
    | some p => exact Or.inr (Or.inl ⟨p, rfl, rfl, by simp⟩)
    | none =>
      cases hpicker : s.ui.columnPicker with
      | some cursor => exact Or.inr (Or.inr (Or.inl ⟨cursor, rfl, rfl, rfl, by simp⟩))
      | none => exact Or.inr (Or.inr (Or.inr ⟨⟨hhelp, hprompt, hpicker⟩, by simp⟩))

/-- what the Enter key makes of a prompt: the prompt stays, or it is closed and one thing is done -/
theorem commitInputPrompt_cases (s : Screen) : s.commitInputPrompt = s ∨
    (∃ ns, s.commitInputPrompt = { s with refreshNs := ns, ui := { s.ui with inputPrompt := none } }) ∨
    (∃ plot v, (∀ y ∈ v, 0 < y) ∧ s.commitInputPrompt = s.withUi
      { s.ui with inputPrompt := none, yMaxOverride := Function.update s.ui.yMaxOverride plot v }) ∨
    ∃ vmId current sticky buffer n, s.ui.inputPrompt = some ⟨.setThreads vmId current sticky, buffer⟩ ∧
      parseU32 (trim buffer) = some n ∧ n ≠ 0 ∧
      s.commitInputPrompt = (s.requestSetThreadCount vmId current n sticky).withUi { s.ui with inputPrompt := none } := by
  unfold commitInputPrompt
  rcases hprompt : s.ui.inputPrompt with _ | ⟨_ | plot | ⟨vmId, current, sticky⟩, buffer⟩
  · exact Or.inl rfl
  · dsimp only
    split
    · exact Or.inl rfl
    · split_ifs
      · exact Or.inl rfl
      · exact Or.inr (Or.inl ⟨_, rfl⟩)
  · dsimp only
    split_ifs with hclear
    · exact Or.inr (Or.inr (Or.inl ⟨plot, none, by simp, rfl⟩))
    · split
      · exact Or.inl rfl
      · rename_i v hv
        split_ifs with hpos
        · exact Or.inl rfl
        · exact Or.inr (Or.inr (Or.inl ⟨plot, some v, by simpa using hpos, rfl⟩))
  · dsimp only
    split
    · exact Or.inl rfl
    · exact Or.inl rfl
    · rename_i n hn hparse
      exact Or.inr (Or.inr (Or.inr ⟨vmId, current, sticky, buffer, n, rfl, hparse, hn, rfl⟩))

/-! ### One step -/

variable {s : Screen}

theorem sound_commit (h : s.Sound) (hquit : s.quit = false) : s.commitInputPrompt.Sound := by
  rcases s.commitInputPrompt_cases with hs | ⟨ns, hs⟩ | ⟨plot, v, hv, hs⟩ | ⟨vmId, current, sticky, buffer, n, -, -, -, hs⟩
  · rwa [hs]
  · rw [hs]
    refine { h with help := fun hhelp => ⟨rfl, (h.help hhelp).2⟩, picker := fun c hc => ⟨rfl, (h.picker c hc).2⟩, quit := ?_ }
    simp [hquit]
  · rw [hs]
    refine { h with
      help := fun hhelp => ⟨rfl, (h.help hhelp).2⟩, picker := fun c hc => ⟨rfl, (h.picker c hc).2⟩, yMax := ?_, quit := ?_ }
    · intro plot' y hy
      by_cases heq : plot' = plot
      · subst heq
        simp only [withUi, Function.update_self] at hy
        exact hv y hy
      · simp only [withUi, Function.update_of_ne heq] at hy
        exact h.yMax plot' y hy
    · simp [withUi, hquit]
  · rw [hs]
    refine { h with help := fun hhelp => ⟨rfl, (h.help hhelp).2⟩, picker := fun c hc => ⟨rfl, (h.picker c hc).2⟩, quit := ?_ }
    simp [withUi, requestSetThreadCount, hquit]

theorem sound_prompt (h : s.Sound) (hquit : s.quit = false) {p : InputPrompt} (hhelp : s.ui.showHelp = false)
    (hp : s.ui.inputPrompt = some p) (k : KeyCode) : (s.handleInputPromptKey k).Sound := by
  have hpicker : s.ui.columnPicker = none := by
    cases hc : s.ui.columnPicker with
    | none => rfl
    | some c =>
      have hnone := (h.picker c hc).1
      rw [hp] at hnone
      cases hnone
  -- a prompt that is open, whatever its text
  have hopen : ∀ q, (s.withUi { s.ui with inputPrompt := q }).Sound := by
    intro q
    refine { h with help := ?_, picker := ?_, quit := ?_ }
    · simp [withUi, hhelp]
    · simp [withUi, hpicker]
    · simp [withUi, hquit]
  unfold handleInputPromptKey
  split
  · exact hopen none
  · exact sound_commit h hquit
  · exact hopen _

theorem sound_toggleColumn (h : s.Sound) (col : DashColumn) : (s.toggleColumn col).Sound := by
  unfold toggleColumn
  split_ifs with hrequired
  · exact h
  · refine { h with columns := ?_ }
    have hne : DashColumn.id ≠ col := by
      rintro rfl
      exact hrequired rfl
    exact Finset.mem_erase.2 ⟨hne, h.columns⟩
  · exact { h with columns := Finset.mem_insert_of_mem h.columns }

theorem sound_picker (h : s.Sound) (hquit : s.quit = false) {cursor : ℕ} (hc : s.ui.columnPicker = some cursor)
    (k : KeyCode) : (s.handleColumnPickerKey cursor k).Sound := by
  have hhelp : s.ui.showHelp = false := by
    cases hshow : s.ui.showHelp with
    | false => rfl
    | true =>
      have hnone := (h.help hshow).2
      rw [hc] at hnone
      cases hnone
  have hprompt := (h.picker cursor hc).1
  -- the cursor on any of the columns, or the picker closed
  have hmoved : ∀ c : Option ℕ, (∀ i ∈ c, i < DashColumn.all.length) → (s.withUi { s.ui with columnPicker := c }).Sound := by
    intro c hlt
    refine { h with help := ?_, picker := fun i hi => ⟨hprompt, hlt i hi⟩, quit := ?_ }
    · simp [withUi, hhelp]
    · simp [withUi, hquit]
  have hpos : 0 < DashColumn.all.length := by decide
  unfold handleColumnPickerKey
  dsimp only
  split
  any_goals exact hmoved none (by simp)
  any_goals
    refine hmoved _ fun i hi => ?_
    rw [← Option.mem_some.1 hi]
    exact Nat.mod_lt _ hpos
  any_goals exact h
  all_goals
    cases DashColumn.all[cursor]? with
    | none => exact h
    | some col => exact sound_toggleColumn h col

theorem sound_focus (h : s.Sound) {focused : Option Focus}
    (hf : focused = some .total → s.ui.showAggregate = true) : (s.withUi { s.ui with focused }).Sound :=
  { h with total := hf }

theorem sound_moveFocus (h : s.Sound) (delta : ℤ) : (s.moveFocus delta).Sound := by
  unfold moveFocus
  dsimp only
  split
  · exact sound_focus h (by simp)
  · refine sound_focus h fun htotal => ?_
    cases hshown : s.ui.showAggregate with
    | true => rfl
    | false => simp [UiState.plotsAggregate, hshown] at htotal

theorem sound_open (h : s.Sound) (ht : s.AtTable) (hquit : s.quit = false) (p : InputPrompt) :
    (s.withUi { s.ui with inputPrompt := some p }).Sound := by
  obtain ⟨hhelp, -, hpicker⟩ := ht
  refine { h with help := ?_, picker := ?_, quit := ?_ }
  · simp [withUi, hhelp]
  · simp [withUi, hpicker]
  · simp [withUi, hquit]

theorem sound_perform (h : s.Sound) (ht : s.AtTable) (hquit : s.quit = false) (now : ℕ) (key : Hotkey) :
    (s.perform now key).Sound := by
  obtain ⟨hhelp, hprompt, hpicker⟩ := ht
  cases key with
  | quit => exact { h with quit := fun _ => ⟨hhelp, hprompt, hpicker⟩ }
  | undo =>
    simp only [perform]
    split_ifs
    · exact sound_focus h (by simp)
    · exact { h with quit := h.quit }
    · exact { h with quit := fun _ => ⟨hhelp, hprompt, hpicker⟩ }
  | help =>
    refine { h with help := fun _ => ⟨hprompt, hpicker⟩, quit := ?_ }
    simp [perform, withUi, hquit]
  | columns =>
    refine { h with help := ?_, picker := ?_, quit := ?_ }
    · simp [perform, withUi, hhelp]
    · intro cursor hc
      rw [← Option.mem_some.1 hc]
      exact ⟨hprompt, by decide⟩
    · simp [perform, withUi, hquit]
  | theme => exact { h with theme := Nat.mod_lt _ (by decide) }
  | aggregate =>
    refine { h with total := ?_ }
    simp only [perform, withUi, UiState.toggleAggregate]
    intro htotal
    cases hshown : s.ui.showAggregate with
    | false => rfl
    | true =>
      rw [hshown] at htotal
      split_ifs at htotal with hdrop
      exact absurd ⟨rfl, htotal⟩ hdrop
  | plot k =>
    obtain ⟨hne, hnodup⟩ := h.plots
    simp only [perform, UiState.togglePlot]
    split_ifs with hmem hlen
    · refine { h with plots := ⟨?_, hnodup.erase k⟩ }
      have hlength := List.length_erase_of_mem hmem
      intro hnil
      rw [show s.ui.activePlots.erase k = [] from hnil, List.length_nil] at hlength
      omega
    · exact h
    · refine { h with plots := ⟨List.append_ne_nil_of_right_ne_nil _ (by simp), ?_⟩ }
      exact List.nodup_append.2 ⟨hnodup, List.nodup_singleton k, fun a ha b hb hab =>
        hmem (by rwa [hab, List.mem_singleton.1 hb] at ha)⟩
  | pause =>
    refine { h with paused := ⟨rfl, ?_⟩ }
    simp only [perform, togglePause]
    split_ifs with hp <;> simp [hp]
  | move delta => exact sound_moveFocus h delta
  | nudge delta =>
    simp only [perform, nudgeThreadCount]
    split
    · exact h
    · split_ifs
      · exact h
      · exact { h with quit := h.quit }
  | setThreads =>
    simp only [perform, openSetThreadsPrompt]
    split
    · exact h
    · exact sound_open h ⟨hhelp, hprompt, hpicker⟩ hquit _
  | refresh => exact sound_open h ⟨hhelp, hprompt, hpicker⟩ hquit _
  | yMax =>
    simp only [perform, openYmaxPrompt]
    split
    · exact h
    · exact sound_open h ⟨hhelp, hprompt, hpicker⟩ hquit _
  | resetAutoscale | metric | sticky | logScale | wallClock => exact { h with quit := h.quit }

theorem sound_handleKey (h : s.Sound) (hquit : s.quit = false) (k : KeyCode) (now : ℕ) : (s.handleKey k now).Sound := by
  rcases s.handleKey_cases k now with ⟨hhelp, hs⟩ | ⟨p, hhelp, hp, hs⟩ | ⟨cursor, hhelp, -, hc, hs⟩ | ⟨ht, hs⟩
  · rw [hs]
    refine { h with help := ?_, quit := ?_ }
    · simp [withUi]
    · simp [withUi, hquit]
  · rw [hs]
    exact sound_prompt h hquit hhelp hp k
  · rw [hs]
    exact sound_picker h hquit hc k
  · rw [hs]
    cases hotkey k with
    | none => exact h
    | some key => exact sound_perform h ht hquit now key

theorem sound_step (select : List String) (h : s.Sound) (e : ScreenEvent) : (s.step select e).Sound := by
  cases hquit : s.quit with
  | true => rwa [step_of_quit select hquit]
  | false =>
    have hstep := steps select hquit e
    generalize s.step select e = t at hstep
    cases hstep with
    | key k now => exact sound_handleKey h hquit k now
    | idle _ _ => exact h
    | _ => exact { h with quit := h.quit }

theorem sound_start (perfMetric : PerfMetric) (refreshSecs : ℚ) : (Screen.start perfMetric refreshSecs).Sound := by
  constructor <;> simp [Screen.start, UiState.new, themeCount]

/-! ## What a key leaves alone, and what it sends -/

@[simp] theorem withUi_tui (ui : UiState) : (s.withUi ui).tui = s.tui := rfl
@[simp] theorem withUi_sampler (ui : UiState) : (s.withUi ui).sampler = s.sampler := rfl
@[simp] theorem withUi_sent (ui : UiState) : (s.withUi ui).sent = s.sent := rfl
@[simp] theorem withUi_ui (ui : UiState) : (s.withUi ui).ui = ui := rfl
@[simp] theorem withUi_quit (ui : UiState) : (s.withUi ui).quit = s.quit := rfl

/-- the roster, the plots and the line of the total are as they were, or the plots and the line have been cleared -/
def Still (s t : Screen) : Prop :=
  (t.tui = s.tui ∧ t.aggregate = s.aggregate) ∨ (t.tui = s.resetAutoscale.tui ∧ t.aggregate = [])

theorem Still.trans {t u : Screen} (hst : Still s t) (htu : Still t u) : Still s u := by
  rcases htu with ⟨htui, haggregate⟩ | ⟨htui, haggregate⟩
  · rwa [Still, htui, haggregate]
  · have hreset : t.resetAutoscale.tui = s.resetAutoscale.tui := by
      rcases hst with ⟨hst, -⟩ | ⟨hst, -⟩ <;> simp [Screen.resetAutoscale, hst]
    exact Or.inr ⟨htui.trans hreset, haggregate⟩

/-- the roster and its samples are the sampler's, but for `z`, which clears the samples -/
structure Frame (s t : Screen) : Prop where
  sampler : t.sampler = s.sampler
  still : Still s t

theorem Frame.same {t : Screen} (hsampler : t.sampler = s.sampler) (htui : t.tui = s.tui)
    (haggregate : t.aggregate = s.aggregate) : Frame s t :=
  ⟨hsampler, Or.inl ⟨htui, haggregate⟩⟩

theorem commit_frame (s : Screen) : Frame s s.commitInputPrompt := by
  rcases s.commitInputPrompt_cases with hs | ⟨ns, hs⟩ | ⟨plot, v, -, hs⟩ | ⟨vmId, current, sticky, buffer, n, -, -, -, hs⟩
  all_goals
    rw [hs]
    exact .same rfl rfl rfl

theorem picker_frame (s : Screen) (cursor : ℕ) (k : KeyCode) :
    Frame s (s.handleColumnPickerKey cursor k) ∧ (s.handleColumnPickerKey cursor k).sent = s.sent ∧
      (s.handleColumnPickerKey cursor k).ui.inputPrompt = s.ui.inputPrompt := by
  have htoggle : ∀ col, Frame s (s.toggleColumn col) ∧ (s.toggleColumn col).sent = s.sent ∧
      (s.toggleColumn col).ui.inputPrompt = s.ui.inputPrompt := by
    intro col
    unfold toggleColumn
    split_ifs <;> exact ⟨.same rfl rfl rfl, rfl, rfl⟩
  unfold handleColumnPickerKey
  dsimp only
  split
  any_goals exact ⟨.same rfl rfl rfl, rfl, rfl⟩
  all_goals
    cases DashColumn.all[cursor]? with
    | none => exact ⟨.same rfl rfl rfl, rfl, rfl⟩
    | some col => exact htoggle col

theorem perform_frame (s : Screen) (now : ℕ) (key : Hotkey) : Frame s (s.perform now key) := by
  cases key with
  | resetAutoscale => exact ⟨rfl, Or.inr ⟨rfl, rfl⟩⟩
  | undo | move _ | nudge _ | yMax | setThreads =>
    simp only [perform, moveFocus, nudgeThreadCount, openYmaxPrompt, openSetThreadsPrompt]
    repeat' split
    all_goals exact .same rfl rfl rfl
  | _ => exact .same rfl rfl rfl

theorem handleKey_frame (s : Screen) (k : KeyCode) (now : ℕ) : Frame s (s.handleKey k now) := by
  rcases s.handleKey_cases k now with ⟨-, hs⟩ | ⟨p, -, -, hs⟩ | ⟨cursor, -, -, -, hs⟩ | ⟨-, hs⟩
  · rw [hs]
    exact .same rfl rfl rfl
  · rw [hs]
    unfold handleInputPromptKey
    split
    · exact .same rfl rfl rfl
    · exact s.commit_frame
    · exact .same rfl rfl rfl
  · rw [hs]
    exact (s.picker_frame cursor k).1
  · rw [hs]
    cases hotkey k with
    | none => exact .same rfl rfl rfl
    | some key => exact s.perform_frame now key

/-- a nudge of the focused VM -/
structure Nudged (s : Screen) (k : KeyCode) (c : ThreadCountCall) (vm : VmState) (delta : ℤ) : Prop where
  table : s.AtTable
  key : hotkey k = some (.nudge delta)
  focused : s.focusedVm = some vm
  next : (c.next : ℤ) = asI32 ((asI32 vm.shownThreadCount + delta) % 2 ^ 32).toNat
  pos : 1 ≤ c.next
  call : c = ⟨vm.id, vm.shownThreadCount, c.next, s.ui.stickyMode⟩

/-- the Enter key on a prompt with a usable number -/
structure Committed (s : Screen) (k : KeyCode) (c : ThreadCountCall) (buffer : List Char) : Prop where
  key : k = .enter
  prompt : s.ui.inputPrompt = some ⟨.setThreads c.id c.cur c.sticky, buffer⟩
  typed : parseU32 (trim buffer) = some c.next
  pos : 1 ≤ c.next

theorem perform_sent (s : Screen) (now : ℕ) (key : Hotkey) (hkey : ∀ delta, key ≠ .nudge delta) :
    (s.perform now key).sent = s.sent := by
  cases key with
  | nudge delta => exact absurd rfl (hkey delta)
  | undo | move _ | yMax | setThreads =>
    simp only [perform, moveFocus, openYmaxPrompt, openSetThreadsPrompt]
    repeat' split
    all_goals rfl
  | _ => rfl

/-- a key sends nothing, or one call in one of the two ways -/
theorem handleKey_sent (s : Screen) (k : KeyCode) (now : ℕ) : (s.handleKey k now).sent = s.sent ∨
    ∃ c, (s.handleKey k now).sent = s.sent ++ [c] ∧
      ((∃ vm delta, s.Nudged k c vm delta) ∨ ∃ buffer, s.ui.showHelp = false ∧ s.Committed k c buffer) := by
  rcases s.handleKey_cases k now with ⟨-, hs⟩ | ⟨p, hhelp, hp, hs⟩ | ⟨cursor, -, -, -, hs⟩ | ⟨ht, hs⟩
  · exact Or.inl (by rw [hs, withUi_sent])
  · unfold handleInputPromptKey at hs
    split at hs
    · exact Or.inl (by rw [hs, withUi_sent])
    · rcases s.commitInputPrompt_cases with hc | ⟨ns, hc⟩ | ⟨plot, v, -, hc⟩ |
        ⟨vmId, current, sticky, buffer, n, hprompt, hparse, hpos, hc⟩
      · exact Or.inl (by rw [hs, hc])
      · exact Or.inl (by rw [hs, hc])
      · exact Or.inl (by rw [hs, hc, withUi_sent])
      · refine Or.inr ⟨⟨vmId, current, n, sticky⟩, by rw [hs, hc, withUi_sent]; rfl, Or.inr ⟨buffer, hhelp, ?_⟩⟩
        exact ⟨rfl, hprompt, hparse, Nat.one_le_iff_ne_zero.2 hpos⟩
    · exact Or.inl (by rw [hs, withUi_sent])
  · exact Or.inl (by rw [hs, (s.picker_frame cursor k).2.1])
  · cases hkey : hotkey k with
    | none => exact Or.inl (by rw [hs, hkey]; rfl)
    | some key =>
      rw [hkey, Option.elim_some] at hs
      rw [hs]
      by_cases hnudge : ∃ delta, key = .nudge delta
      · obtain ⟨delta, rfl⟩ := hnudge
        simp only [perform, nudgeThreadCount]
        split
        · exact Or.inl rfl
        · rename_i vm hvm
          split_ifs with hlt
          · exact Or.inl rfl
          · refine Or.inr ⟨⟨vm.id, vm.shownThreadCount, _, s.ui.stickyMode⟩, rfl, Or.inl ⟨vm, delta, ?_⟩⟩
            exact ⟨ht, hkey, hvm, Int.toNat_of_nonneg (by omega), by dsimp only; omega, rfl⟩
      · exact Or.inl (s.perform_sent now key fun delta heq => hnudge ⟨delta, heq⟩)

end Screen

/-- in every run the screen keeps its modes apart and its defaults in place -/
theorem screen_sound (select : List String) (perfMetric : PerfMetric) (refreshSecs : ℚ) (events : List ScreenEvent) :
    (Core.run (Screen.step select) (Screen.start perfMetric refreshSecs) events).Sound :=
  Core.run_inv Screen.Sound (fun _ e h _ => Screen.sound_step select h e) (Screen.sound_start perfMetric refreshSecs)
    (Core.along_true _ _ events)

/-! ## Pause -/

theorem replies_cons_reply {s : Screen} {elapsed : ℕ} (hquit : s.quit = false) (hphase : s.sampler = .polling elapsed)
    (p : SnapshotPayload) (trace : ScreenTrace) : replies ((s, .reply p) :: trace) = p :: replies trace := by
  simp [replies, takenReply, hquit, hphase]

namespace Screen

/-- the rows that the cursor goes through -/
def slots (s : Screen) : ℕ := if s.ui.plotsAggregate s.tui.ids.length then s.tui.ids.length + 1 else s.tui.ids.length

/-- the row that a move starts from; without a cursor it is the first -/
def slot (s : Screen) : ℕ :=
  match s.ui.focused with
  | some (.vm id) => (s.tui.ids.idxOf? id).getD 0
  | some .total => s.tui.ids.length
  | none => 0

/-- what a row is: a VM, or the total after the last of them -/
def atSlot (s : Screen) (i : ℕ) : Option Focus :=
  if s.ui.plotsAggregate s.tui.ids.length ∧ i = s.tui.ids.length then some .total else s.tui.ids[i]?.map Focus.vm

theorem moveFocus_eq (s : Screen) (delta : ℤ) (hids : s.tui.ids ≠ []) :
    s.moveFocus delta = s.withUi { s.ui with focused := s.atSlot ((s.slot + delta) % s.slots).toNat } := by
  unfold moveFocus
  rw [if_neg (by simpa [Tui.ids] using hids)]
  rfl

theorem slots_pos {s : Screen} (hids : s.tui.ids ≠ []) : 0 < s.slots := by
  have hlen := List.length_pos_iff.2 hids
  unfold slots
  split_ifs <;> omega

theorem lt_length_of_slot {s : Screen} {i : ℕ} (hi : i < s.slots)
    (hlast : ¬ (s.ui.plotsAggregate s.tui.ids.length = true ∧ i = s.tui.ids.length)) : i < s.tui.ids.length := by
  unfold slots at hi
  split_ifs at hi with hdrawn
  · by_contra hge
    exact hlast ⟨hdrawn, by omega⟩
  · exact hi

/-- a move over a roster that is not empty ends at a row -/
theorem moveFocus_isSome (s : Screen) (delta : ℤ) (hids : s.tui.ids ≠ []) :
    (s.moveFocus delta).ui.focused.isSome = true := by
  have hpos : (0 : ℤ) < s.slots := by exact_mod_cast slots_pos hids
  have hlt : ((s.slot + delta) % s.slots).toNat < s.slots := by
    have hmod := Int.emod_lt_of_pos (s.slot + delta) hpos
    omega
  rw [moveFocus_eq s delta hids, withUi_ui]
  dsimp only
  unfold atSlot
  split_ifs with hlast
  · rfl
  · simpa using lt_length_of_slot hlt hlast

/-- the row of what a row is -/
theorem slot_of_atSlot {s t : Screen} (hnodup : s.tui.ids.Nodup) {i : ℕ} (hi : i < s.slots) (hids : t.tui.ids = s.tui.ids)
    (hf : t.ui.focused = s.atSlot i) : t.slot = i := by
  unfold slot
  rw [hf, hids]
  unfold atSlot
  split_ifs with hlast
  · exact hlast.2.symm
  · have hlt := lt_length_of_slot hi hlast
    have hfound : s.tui.ids.idxOf? s.tui.ids[i] = some i := by
      refine List.idxOf?_eq_some_iff.2 ⟨hlt, rfl, fun j hj heq => ?_⟩
      exact hj.ne ((hnodup.getElem_inj_iff).1 heq)
    rw [List.getElem?_eq_getElem hlt, Option.map_some]
    dsimp only
    rw [hfound, Option.getD_some]

end Screen

/-- the distance that an event moves the cursor -/
def moveOf : ScreenEvent → ℤ
  | .key k _ =>
    match hotkey k with
    | some (.move delta) => delta
    | _ => 0
  | _ => 0

/-- an event that moves the cursor, or that is no key and leaves the VMs of the roster -/
def SteadyRows (select : List String) (s : Screen) (e : ScreenEvent) : Prop :=
  (∃ k now delta, e = .key k now ∧ hotkey k = some (.move delta)) ∨
    (∀ k now, e ≠ .key k now) ∧ (s.step select e).tui.ids = s.tui.ids

/-- the table of keys is open, and its rows are those of another screen -/
structure SameRows (s t : Screen) : Prop where
  live : t.quit = false
  table : t.AtTable
  ids : t.tui.ids = s.tui.ids
  aggregate : t.ui.showAggregate = s.ui.showAggregate

theorem SameRows.plots {s t : Screen} (h : SameRows s t) (n : ℕ) : t.ui.plotsAggregate n = s.ui.plotsAggregate n := by
  rw [UiState.plotsAggregate, h.aggregate, UiState.plotsAggregate]

theorem SameRows.slots {s t : Screen} (h : SameRows s t) : t.slots = s.slots := by
  rw [Screen.slots, h.plots, h.ids, Screen.slots]

theorem SameRows.atSlot {s t : Screen} (h : SameRows s t) (i : ℕ) : t.atSlot i = s.atSlot i := by
  rw [Screen.atSlot, h.plots, h.ids, Screen.atSlot]

theorem move_step (select : List String) {s t : Screen} (h : SameRows s t) (hids : s.tui.ids ≠ []) {k : KeyCode} (now : ℕ)
    {delta : ℤ} (hkey : hotkey k = some (.move delta)) : SameRows s (t.step select (.key k now)) ∧
      (t.step select (.key k now)).ui.focused = s.atSlot ((t.slot + delta) % s.slots).toNat := by
  have hstep : t.step select (.key k now) =
      t.withUi { t.ui with focused := s.atSlot ((t.slot + delta) % s.slots).toNat } := by
    obtain ⟨hhelp, hprompt, hpicker⟩ := h.table
    rw [← h.slots, ← h.atSlot, ← Screen.moveFocus_eq t delta (h.ids ▸ hids)]
    simp [Screen.step, h.live, Screen.handleKey, hhelp, hprompt, hpicker, hkey, Screen.perform]
  rw [hstep]
  exact ⟨⟨h.live, h.table, h.ids, h.aggregate⟩, rfl⟩

theorem emod_slots {s : Screen} {i : ℕ} (hi : i < s.slots) : (((i : ℤ) + 0) % s.slots).toNat = i := by
  rw [add_zero, Int.emod_eq_of_lt (Int.natCast_nonneg i) (by exact_mod_cast hi), Int.toNat_natCast]

theorem rows_step (select : List String) {s t : Screen} (h : SameRows s t) (hnodup : s.tui.ids.Nodup)
    (hids : s.tui.ids ≠ []) {i : ℕ} (hi : i < s.slots) (hf : t.ui.focused = s.atSlot i) {e : ScreenEvent}
    (he : SteadyRows select t e) : SameRows s (t.step select e) ∧
      (t.step select e).ui.focused = s.atSlot ((i + moveOf e) % s.slots).toNat := by
  rcases he with ⟨k, now, delta, rfl, hkey⟩ | ⟨hkey, hsame⟩
  · rw [moveOf, hkey, ← Screen.slot_of_atSlot hnodup hi h.ids hf]
    exact move_step select h hids now hkey
  · have hui : (t.step select e).ui = t.ui ∧ (t.step select e).quit = t.quit := by
      have hstep := Screen.steps select h.live e
      generalize t.step select e = u at hstep
      cases hstep with
      | key k now => exact absurd rfl (hkey k now)
      | _ => exact ⟨rfl, rfl⟩
    have hmove : moveOf e = 0 := by
      cases e with
      | key k now => exact absurd rfl (hkey k now)
      | _ => rfl
    rw [hmove, emod_slots hi, hui.1]
    refine ⟨⟨hui.2.trans h.live, ?_, hsame.trans h.ids, ?_⟩, hf⟩
    · simpa only [Screen.AtTable, hui.1] using h.table
    · rw [hui.1, h.aggregate]

/-- two moves in a row, modulo the rows -/
theorem emod_emod_slots {s : Screen} (hids : s.tui.ids ≠ []) (a b : ℤ) :
    (a % s.slots).toNat < s.slots ∧ (((a % s.slots).toNat : ℤ) + b) % s.slots = (a + b) % s.slots := by
  have hpos : (0 : ℤ) < s.slots := by exact_mod_cast Screen.slots_pos hids
  have hnonneg := Int.emod_nonneg a hpos.ne'
  have hlt := Int.emod_lt_of_pos a hpos
  refine ⟨by omega, ?_⟩
  rw [Int.toNat_of_nonneg hnonneg, Int.emod_add_emod]

/-- moves from a row that the cursor is on -/
theorem rows_run (select : List String) {s : Screen} (hnodup : s.tui.ids.Nodup) (hids : s.tui.ids ≠ [])
    (events : List ScreenEvent) {t : Screen} (h : SameRows s t) {i : ℕ} (hi : i < s.slots)
    (hf : t.ui.focused = s.atSlot i) (he : Core.Along (Screen.step select) (SteadyRows select) t events) :
    (Core.run (Screen.step select) t events).ui.focused = s.atSlot ((i + (events.map moveOf).sum) % s.slots).toNat := by
  induction events generalizing t i with
  | nil => rwa [List.map_nil, List.sum_nil, emod_slots hi]
  | cons e events ih =>
    obtain ⟨hrows, hmoved⟩ := rows_step select h hnodup hids hi hf he.1
    obtain ⟨hlt, hsum⟩ := emod_emod_slots hids (i + moveOf e) (events.map moveOf).sum
    rw [Core.run_cons, ih hrows hlt hmoved he.2, hsum, List.map_cons, List.sum_cons, add_assoc]

/-- a move, and then any moves with the sampler at work in between, as long as the VMs of the roster stay: the cursor ends
as far from the row where it started as the moves say, modulo the rows -/
theorem focus_follows_moves (select : List String) {s : Screen} (hlive : s.quit = false) (ht : s.AtTable)
    (hids : s.tui.ids ≠ []) (hnodup : s.tui.ids.Nodup) {k : KeyCode} {now : ℕ} {delta : ℤ}
    (hkey : hotkey k = some (.move delta)) (events : List ScreenEvent)
    (he : Core.Along (Screen.step select) (SteadyRows select) (s.step select (.key k now)) events) :
    (Core.run (Screen.step select) s (.key k now :: events)).ui.focused =
      s.atSlot ((s.slot + (delta + (events.map moveOf).sum)) % s.slots).toNat := by
  have hself : SameRows s s := ⟨hlive, ht, rfl, rfl⟩
  obtain ⟨hrows, hmoved⟩ := move_step select hself hids now hkey
  obtain ⟨hlt, hsum⟩ := emod_emod_slots hids (s.slot + delta) (events.map moveOf).sum
  rw [Core.run_cons, rows_run select hnodup hids events hrows hlt hmoved he, hsum, add_assoc]

/-- two VMs and the total: once down and twice up, with a reply in between, is the total -/
theorem focus_follows_moves_total :
    let reply : ScreenEvent := .reply ⟨[{ id := "a", threadCount := 2 }, { id := "b", threadCount := 4 }]⟩
    let s := Core.run (Screen.step []) (Screen.start .iops 1) [.wake 0, reply, .record, .key (.char 'a') 1]
    (Core.run (Screen.step []) s
      [.key .down 2, .wake 3, reply, .key (.char 'k') 4, .record, .key .up 5]).ui.focused = some .total := by
  intro reply s
  have htable : s.AtTable := ⟨by decide +kernel, by decide +kernel, by decide +kernel⟩
  have hmoves := focus_follows_moves [] (by decide +kernel) htable (by decide +kernel) (by decide +kernel)
    (show hotkey .down = some (.move 1) from rfl)
    [.wake 3, reply, .key (.char 'k') 4, .record, .key .up 5]
    (show Core.Along (Screen.step []) (SteadyRows []) (s.step [] (.key .down 2)) _ from
      ⟨Or.inr ⟨nofun, by decide +kernel⟩, Or.inr ⟨nofun, by decide +kernel⟩, Or.inl ⟨_, _, _, rfl, rfl⟩,
        Or.inr ⟨nofun, by decide +kernel⟩, Or.inl ⟨_, _, _, rfl, rfl⟩, trivial⟩)
  exact hmoves.trans (by decide +kernel)

end IoThreadController
