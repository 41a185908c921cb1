/-
The texts that the dashboard cuts to fit the screen, and the error that it shows.

- `Elided original shown`: whole characters gave way to one ellipsis, or nothing did. `Elided.length_le` is the bound on
  what is shown.
- `shortenId_iff`, `overlay_iff`: each cut is a text, and then an elided one, exactly when its byte offsets lie between
  characters. Both functions panic otherwise.
- `display_texts_iff`: the two together, for every id, vCPU count, error and screen.
- `shortenId_ascii`, `overlay_ascii`: texts of one-byte characters are always cut between characters.
- `daemonError_run`: the error that the overlay quotes is the latest one, once enough polls in a row have failed.
-/
import IoThreadController.Core.Run
import IoThreadController.Model.Dashboard

namespace IoThreadController

/-- what is shown of a text has whole characters of it around an ellipsis, or is all of it -/
def Elided (original shown : String) : Prop :=
  shown = original ∨ ∃ head cut tail, original = head ++ cut ++ tail ∧ shown = head ++ "…" ++ tail

theorem Elided.length_le {original shown : String} (h : Elided original shown) : shown.length ≤ original.length + 1 := by
  rcases h with rfl | ⟨head, cut, tail, rfl, rfl⟩
  · omega
  · have hmark : "…".length = 1 := by decide
    simp only [String.length_append, hmark]
    omega

/-! ## Cuts -/

theorem sliceTo_eq_none {s : String} {n : ℕ} : sliceTo s n = none ↔ ¬ (⟨n⟩ : String.Pos.Raw).IsValid s := by
  simp [sliceTo, Core.splitAtByte_eq_none]

theorem sliceFrom_eq_none {s : String} {n : ℕ} : sliceFrom s n = none ↔ ¬ (⟨n⟩ : String.Pos.Raw).IsValid s := by
  simp [sliceFrom, Core.splitAtByte_eq_none]

/-- what two slices leave out is between them -/
theorem exists_slices {s : String} {m n : ℕ} (hmn : m ≤ n) (hm : (⟨m⟩ : String.Pos.Raw).IsValid s)
    (hn : (⟨n⟩ : String.Pos.Raw).IsValid s) :
    ∃ head cut tail, sliceTo s m = some head ∧ sliceFrom s n = some tail ∧ s = head ++ cut ++ tail := by
  obtain ⟨head, rest, hhead⟩ := Core.exists_split hm
  obtain ⟨front, tail, htail⟩ := Core.exists_split hn
  obtain ⟨cut, hcut⟩ := Core.split_between hmn hhead htail
  exact ⟨head, cut, tail, by simp [sliceTo, hhead], by simp [sliceFrom, htail], hcut⟩

/-! ## Ids -/

/-- the shortened id is there, without the cut of a character, and only the marks make it longer -/
def IdShown (id : String) (vcpuCount : Option ℕ) : Prop :=
  ∃ base badge, shortenId id vcpuCount = some (base ++ badge) ∧ Elided id base ∧
    badge = vcpuCount.elim "" (fun n => " vc=" ++ toString n) ∧ (base ++ badge).length ≤ id.length + 1 + badge.length

/-- the bytes before the 16th and the last four of a long id are whole characters -/
def IdCutsBetween (id : String) : Prop :=
  22 < id.utf8ByteSize →
    (⟨16⟩ : String.Pos.Raw).IsValid id ∧ (⟨id.utf8ByteSize - 4⟩ : String.Pos.Raw).IsValid id

theorem idShown_of_base {id base : String} {vcpuCount : Option ℕ} (hcut : Elided id base)
    (h : shortenId id vcpuCount = some (base ++ vcpuCount.elim "" fun n => " vc=" ++ toString n)) :
    IdShown id vcpuCount := by
  refine ⟨base, _, h, hcut, rfl, ?_⟩
  rw [String.length_append]
  have hlen := hcut.length_le
  omega

theorem shortenId_iff (id : String) (vcpuCount : Option ℕ) : IdShown id vcpuCount ↔ IdCutsBetween id := by
  constructor
  · rintro ⟨base, badge, hshown, -⟩ hlong
    unfold shortenId at hshown
    rw [if_pos hlong] at hshown
    refine ⟨?_, ?_⟩
    · by_contra hinside
      rw [sliceTo_eq_none.2 hinside] at hshown
      simp at hshown
    · by_contra hinside
      rw [sliceFrom_eq_none.2 hinside] at hshown
      cases hhead : sliceTo id 16 <;> simp [hhead] at hshown
  · intro hcuts
    by_cases hlong : 22 < id.utf8ByteSize
    · obtain ⟨hm, hn⟩ := hcuts hlong
      obtain ⟨head, cut, tail, hhead, htail, hid⟩ := exists_slices (by omega) hm hn
      apply idShown_of_base (Or.inr ⟨head, cut, tail, hid, rfl⟩)
      unfold shortenId
      rw [if_pos hlong, hhead, htail]
      cases vcpuCount <;> simp [String.append_assoc]
    · apply idShown_of_base (Or.inl rfl)
      unfold shortenId
      rw [if_neg hlong]
      cases vcpuCount <;> simp [String.append_assoc]

/-- an id of one-byte characters, such as a UUID, is always shown -/
theorem shortenId_ascii {id : String} (h : ∀ c ∈ id.toList, c.utf8Size = 1) (vcpuCount : Option ℕ) :
    IdShown id vcpuCount := by
  rw [shortenId_iff]
  intro hlong
  refine ⟨?_, ?_⟩
  · apply Core.isValid_of_ascii h
    omega
  · apply Core.isValid_of_ascii h
    omega

/-! ## Errors -/

/-- the overlay is there and quotes the error, without the cut of a character, and only the mark makes it longer -/
def ErrorShown (full : Rect) (err : String) : Prop :=
  ∃ overlay shown, drawDaemonLostOverlay full err = some overlay ∧ "last error: " ++ shown ∈ overlay.lines ∧
    Elided err shown ∧ shown.length ≤ err.length + 1

/-- when the error does not fit into the box, the bytes that leave room for the mark are whole characters -/
def ErrorCutBetween (full : Rect) (err : String) : Prop :=
  min 74 full.width - 4 < err.utf8ByteSize → (⟨min 74 full.width - 4 - 1⟩ : String.Pos.Raw).IsValid err

theorem overlay_iff (full : Rect) (err : String) : ErrorShown full err ↔ ErrorCutBetween full err := by
  constructor
  · rintro ⟨overlay, shown, hdraw, -⟩ hlong
    by_contra hinside
    have hfits : min 74 full.width - 4 - 1 ≤ err.utf8ByteSize := by omega
    unfold drawDaemonLostOverlay at hdraw
    dsimp only at hdraw
    rw [if_pos hlong, truncate, if_pos hfits, sliceTo_eq_none.2 hinside] at hdraw
    simp at hdraw
  · intro hcut
    unfold ErrorShown drawDaemonLostOverlay
    dsimp only
    by_cases hlong : min 74 full.width - 4 < err.utf8ByteSize
    · obtain ⟨head, cut, hsplit⟩ := Core.exists_split (hcut hlong)
      have herr : err = head ++ cut := (Core.splitAtByte_eq_some.1 hsplit).1
      have hfits : min 74 full.width - 4 - 1 ≤ err.utf8ByteSize := by omega
      have hhead : sliceTo err (min 74 full.width - 4 - 1) = some head := by simp [sliceTo, hsplit]
      have helided : Elided err (head ++ "…") := Or.inr ⟨head, cut, "", by simpa using herr, by simp⟩
      rw [if_pos hlong, truncate, if_pos hfits, hhead]
      refine ⟨_, head ++ "…", rfl, ?_, helided, helided.length_le⟩
      simp
    · rw [if_neg hlong]
      refine ⟨_, err, rfl, ?_, Or.inl rfl, by omega⟩
      simp

/-- so is the overlay of an error of one-byte characters, on every screen -/
theorem overlay_ascii {err : String} (h : ∀ c ∈ err.toList, c.utf8Size = 1) (full : Rect) : ErrorShown full err := by
  rw [overlay_iff]
  intro hlong
  apply Core.isValid_of_ascii h
  omega

/-! ## Both -/

/-- for every id, vCPU count, error and screen, both texts are shown exactly when every cut lies between characters -/
theorem display_texts_iff (id : String) (vcpuCount : Option ℕ) (full : Rect) (err : String) :
    IdShown id vcpuCount ∧ ErrorShown full err ↔ IdCutsBetween id ∧ ErrorCutBetween full err := by
  rw [shortenId_iff, overlay_iff]

/-- an id with a character across byte 16 and an error with one across the room of a wide screen: both panic -/
theorem display_texts_panic :
    shortenId "aééééééééééé" none = none ∧ ¬ IdShown "aééééééééééé" none ∧
      ¬ ErrorShown ⟨0, 0, 80, 24⟩ (String.ofList (List.replicate 36 'é')) := by
  refine ⟨by decide +kernel, ?_, ?_⟩
  · rw [shortenId_iff]
    intro h
    exact absurd (h (by decide +kernel)).1 (by decide +kernel)
  · rw [overlay_iff]
    intro h
    exact absurd (h (by decide +kernel)) (by decide +kernel)

/-! ## The error that is shown -/

/-- the outcomes of the polls, the latest one first -/
def noteOutcome (_ : Tui) : SamplerPass → List (Option String) → List (Option String)
  | .paused, outcomes => outcomes
  | .failed error, outcomes => some error :: outcomes
  | .polled _ _, outcomes => none :: outcomes

/-- the polls that have failed since the latest success -/
def failuresInARow (outcomes : List (Option String)) : ℕ := (outcomes.takeWhile Option.isSome).length

/-- the streak counts the failures in 32 bits, and a counted failure is remembered -/
structure ErrorsOf (x : Tui × List (Option String)) : Prop where
  streak : x.1.daemonFailedStreak = failuresInARow x.2 % 2 ^ 32
  error : 0 < x.1.daemonFailedStreak → x.1.daemonLastError = x.2.head?.join

theorem errorsOf_step {select : List String} {x : Tui × List (Option String)} (e : SamplerPass) (h : ErrorsOf x) :
    ErrorsOf (Core.withHistory (samplerPass select) noteOutcome x e) := by
  cases e with
  | paused => exact h
  | failed error =>
    refine ⟨?_, fun _ => rfl⟩
    simp [Core.withHistory, samplerPass, noteOutcome, failuresInARow, h.streak]
  | polled elapsed p =>
    refine ⟨rfl, fun hpos => ?_⟩
    simp [Core.withHistory, samplerPass, recordSamples, reconcileWithSnapshot] at hpos

/-- after every run the screen shows the latest error if enough polls in a row have failed, and none otherwise -/
theorem daemonError_run (select : List String) (es : List SamplerPass) :
    let x := Core.run (Core.withHistory (samplerPass select) noteOutcome) ({}, []) es
    x.1.daemonError = if daemonLostStreak ≤ failuresInARow x.2 % 2 ^ 32 then x.2.head?.join else none := by
  intro x
  have hrun : ErrorsOf x := Core.run_inv ErrorsOf (fun _ e h _ => errorsOf_step e h)
    ⟨rfl, fun hpos => absurd hpos (lt_irrefl 0)⟩ (Core.along_true _ _ es)
  unfold Tui.daemonError
  rw [hrun.streak]
  split_ifs with hlost
  · apply hrun.error
    rw [hrun.streak]
    exact lt_of_lt_of_le (by decide) hlost
  · rfl

end IoThreadController
