/-
Which file an event about a VM goes to.

- `path_eq`: the file of a VM is in the log directory, under the VM's id with the characters replaced that are not kept.
- `fileName_eq_iff`: two ids share a file when they differ only in replaced characters.
- `onEvent_writes`: an event goes to the file of the text it is tagged with.
- `own_files_iff`: two VMs have a file each, for events tagged either way, exactly when their ids differ in a kept
  character and have no white space around them.
-/
import IoThreadController.Core.Split
import IoThreadController.Model.PerVmLog

namespace IoThreadController

open IoThreadController.Core (strip_sublist)

/-! ## File names -/

/-- the file name of a VM -/
def fileName (vm : String) : String := String.ofList (vm.toList.map sanitise) ++ ".log"

/-- letters, digits, `-` and `.` stay apart from every other character -/
def IsPlain (c : Char) : Prop := c.isAlphanum ∨ c = '-' ∨ c = '.'

instance (c : Char) : Decidable (IsPlain c) := inferInstanceAs (Decidable (_ ∨ _))

/-- the ids differ in characters that are not plain, if at all -/
def Alike (a b : String) : Prop := List.Forall₂ (fun c d => c = d ∨ ¬ IsPlain c ∧ ¬ IsPlain d) a.toList b.toList

instance (a b : String) : Decidable (Alike a b) := inferInstanceAs (Decidable (List.Forall₂ _ _ _))

theorem sanitise_plain {c : Char} (h : IsPlain c) : sanitise c = c := by
  unfold sanitise
  refine if_pos ?_
  rcases h with h | rfl | rfl
  · rw [h, Bool.true_or]
  · decide
  · decide

theorem sanitise_other {c : Char} (h : ¬ IsPlain c) : sanitise c = '_' := by
  unfold IsPlain at h
  unfold sanitise
  split_ifs with hkept
  · simp only [Bool.or_eq_true, List.contains_eq_mem, decide_eq_true_eq, List.mem_cons, List.not_mem_nil,
      or_false] at hkept
    tauto
  · rfl

theorem underscore_not_plain : ¬ IsPlain '_' := by decide

theorem sanitise_eq_iff {c d : Char} : sanitise c = sanitise d ↔ c = d ∨ ¬ IsPlain c ∧ ¬ IsPlain d := by
  by_cases hc : IsPlain c
  · by_cases hd : IsPlain d
    · rw [sanitise_plain hc, sanitise_plain hd]
      tauto
    · rw [sanitise_plain hc, sanitise_other hd]
      have hne : c ≠ '_' := fun h => underscore_not_plain (h ▸ hc)
      have hcd : c ≠ d := fun h => hd (h ▸ hc)
      tauto
  · by_cases hd : IsPlain d
    · rw [sanitise_other hc, sanitise_plain hd]
      have hne : '_' ≠ d := fun h => underscore_not_plain (h ▸ hd)
      have hcd : c ≠ d := fun h => hc (h ▸ hd)
      tauto
    · rw [sanitise_other hc, sanitise_other hd]
      tauto

theorem sanitise_ne_slash (c : Char) : sanitise c ≠ '/' := by
  by_cases hc : IsPlain c
  · rw [sanitise_plain hc]
    rintro rfl
    revert hc
    decide
  · rw [sanitise_other hc]
    decide

theorem fileName_eq_iff {a b : String} : fileName a = fileName b ↔ Alike a b := by
  have hmap : a.toList.map sanitise = b.toList.map sanitise ↔ Alike a b := by
    rw [← List.forall₂_eq_eq_eq, List.forall₂_map_left_iff, List.forall₂_map_right_iff]
    simp only [sanitise_eq_iff]
    rfl
  unfold fileName
  rw [← String.toList_inj, String.toList_append, String.toList_append, List.append_left_inj, String.toList_ofList,
    String.toList_ofList, hmap]

theorem ofString_fileName (vm : String) : PathBuf.ofString (fileName vm) = ⟨false, [fileName vm]⟩ := by
  have hslash : '/' ∉ (fileName vm).toList := by
    unfold fileName
    rw [String.toList_append, String.toList_ofList, List.mem_append, List.mem_map]
    rintro (⟨c, -, hc⟩ | hc)
    · exact sanitise_ne_slash c hc
    · revert hc
      decide
  have hne : (fileName vm).toList ≠ [] := by
    unfold fileName
    rw [String.toList_append]
    exact List.append_ne_nil_of_right_ne_nil _ (by decide)
  have hhead : (fileName vm).toList.head? ≠ some '/' := fun h => hslash (List.mem_of_mem_head? h)
  unfold PathBuf.ofString
  rw [List.splitOn_eq_singleton hslash, List.filter_cons_of_pos (by simpa using hne), List.filter_nil, List.map_cons,
    List.map_nil, String.ofList_toList, decide_eq_false hhead]

/-! ## Paths -/

variable {log : PerVmLog} {dir : PathBuf}

theorem path_eq (hdir : log.dir = some dir) (vm : String) :
    log.path vm = some { dir with comps := dir.comps ++ [fileName vm] } := by
  have hjoin : dir.join (PathBuf.ofString (fileName vm)) = { dir with comps := dir.comps ++ [fileName vm] } := by
    rw [ofString_fileName]
    rfl
  unfold PerVmLog.path
  rw [hdir, Option.map_some]
  exact congrArg some hjoin

theorem path_parent (vm : String) :
    ({ dir with comps := dir.comps ++ [fileName vm] } : PathBuf).parent = some dir := by
  unfold PathBuf.parent
  rw [if_neg (by simp), List.dropLast_concat]

theorem path_eq_iff (hdir : log.dir = some dir) {a b : String} : log.path a = log.path b ↔ Alike a b := by
  rw [path_eq hdir, path_eq hdir, Option.some.injEq, PathBuf.mk.injEq, List.append_right_inj, List.cons.injEq,
    fileName_eq_iff]
  tauto

/-- without failures an event is appended to the file of the text it is tagged with -/
theorem onEvent_writes (hdir : log.dir = some dir) {env : LogEnv} (hcreate : env.createFault = none)
    (hwrite : env.writeFault = none) {event : LogEvent} {vm : String} (hvm : event.record.vm = some vm) :
    (log.onEvent env event).2 =
      [.createDirAll dir, .append { dir with comps := dir.comps ++ [fileName vm] }
        (env.timestamp ++ " " ++ event.record.line ++ "\n")] := by
  unfold PerVmLog.onEvent PerVmLog.append
  rw [if_neg (by rw [hdir]; exact Option.some_ne_none dir), hvm]
  dsimp only
  rw [path_eq hdir]
  dsimp only
  rw [path_parent, hcreate, hwrite]
  rfl

/-! ## Two VMs -/

/-- each VM has a file of its own in the directory, and the events about it go there, tagged with the id or with what
`Display` shows of it -/
structure OwnFiles (log : PerVmLog) (dir : PathBuf) (i j : Instance) : Prop where
  separate : log.path i.id ≠ log.path j.id
  inside : ∀ k ∈ [i, j], (log.path k.id).bind PathBuf.parent = some dir
  complete : ∀ k ∈ [i, j], ∀ (env : LogEnv) (event : LogEvent), env.createFault = none → env.writeFault = none →
    event.record.vm = some k.id ∨ event.record.vm = some k.display →
    ∃ path, log.path k.id = some path ∧ (log.onEvent env event).2 =
      [.createDirAll dir, .append path (env.timestamp ++ " " ++ event.record.line ++ "\n")]

/-- the id has no white space at its ends -/
def Trimmed (i : Instance) : Prop := trim i.id.toList = i.id.toList

instance (i : Instance) : Decidable (Trimmed i) := inferInstanceAs (Decidable (_ = _))

theorem alike_display_iff (i : Instance) : Alike i.id i.display ↔ Trimmed i := by
  unfold Trimmed
  constructor
  · intro h
    have hlength := h.length_eq
    unfold Instance.display at hlength
    rw [String.toList_ofList] at hlength
    exact (strip_sublist i.id.toList).eq_of_length hlength.symm
  · intro h
    unfold Instance.display
    rw [h, String.ofList_toList]
    exact List.forall₂_same.2 fun c _ => Or.inl rfl

theorem display_eq {i : Instance} (h : Trimmed i) : i.display = i.id := by
  unfold Instance.display
  rw [h, String.ofList_toList]

/-- an event tagged with the display form reaches the file of the id only when that form is the id -/
theorem trimmed_of_complete (hdir : log.dir = some dir) {i j k : Instance} (h : OwnFiles log dir i j) (hk : k ∈ [i, j]) :
    Trimmed k := by
  have hvm : (LogEvent.mk "engine" [("vm", k.display)]).record.vm = some k.display := rfl
  obtain ⟨path, hpath, heffects⟩ := h.complete k hk ⟨"", none, none⟩ _ rfl rfl (Or.inr hvm)
  rw [onEvent_writes hdir rfl rfl hvm] at heffects
  have hsame : { dir with comps := dir.comps ++ [fileName k.display] } = path := by
    injection heffects with _ hrest
    injection hrest with happend _
    injection happend
  rw [← hsame, ← path_eq hdir] at hpath
  exact (alike_display_iff k).1 ((path_eq_iff hdir).1 hpath)

theorem own_files_iff (hdir : log.dir = some dir) (i j : Instance) :
    OwnFiles log dir i j ↔ ¬ Alike i.id j.id ∧ Trimmed i ∧ Trimmed j := by
  constructor
  · intro h
    exact ⟨fun halike => h.separate ((path_eq_iff hdir).2 halike), trimmed_of_complete hdir h (by simp),
      trimmed_of_complete hdir h (by simp)⟩
  · rintro ⟨halike, hi, hj⟩
    have htrimmed : ∀ k ∈ [i, j], Trimmed k := by
      intro k hk
      rcases List.mem_pair.1 hk with rfl | rfl
      · exact hi
      · exact hj
    refine ⟨fun heq => halike ((path_eq_iff hdir).1 heq), fun k _ => ?_, ?_⟩
    · rw [path_eq hdir, Option.bind_some, path_parent]
    · intro k hk env event hcreate hwrite htag
      rw [display_eq (htrimmed k hk), or_self] at htag
      exact ⟨_, path_eq hdir k.id, onEvent_writes hdir hcreate hwrite htag⟩

def logDir : PathBuf := ⟨true, ["var", "log", "io-thread-controller", "vms"]⟩

theorem own_files_two_vms : OwnFiles ⟨some logDir, []⟩ logDir ⟨"vm-1", 0, {}⟩ ⟨"vm-2", 1, {}⟩ :=
  (own_files_iff rfl _ _).2 (by decide)

/-- `web:1` and `web_1` share a file, and the scaling decisions about a VM named `db ` go to that of `db` -/
theorem files_shared :
    ¬ OwnFiles ⟨some logDir, []⟩ logDir ⟨"web:1", 0, {}⟩ ⟨"web_1", 1, {}⟩ ∧
      ¬ OwnFiles ⟨some logDir, []⟩ logDir ⟨"db ", 0, {}⟩ ⟨"web", 1, {}⟩ := by
  constructor
  · intro h
    exact h.separate ((path_eq_iff rfl).2 (by decide))
  · intro h
    have htrimmed : Trimmed ⟨"db ", 0, {}⟩ := trimmed_of_complete rfl h (by simp)
    revert htrimmed
    decide

end IoThreadController
