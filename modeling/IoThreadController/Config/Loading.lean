/-
Loading a file with its includes: what a load is, and when it ends.

- `loadVia`: loading under any rule for where an include leads; `loadConfigValue_eq`: the code's rule.
- `loadVia_isSome`: a load needs exactly one unit of fuel for each file that it reads.
- `load_terminates_iff`: over finitely many files the load returns exactly when the includes, as the code resolves them,
  lead into no cycle; then one read more than there are files is enough.
-/
import IoThreadController.Core.Follow
import IoThreadController.Model.Include

namespace IoThreadController

open IoThreadController.Core (Json Move EndsWithin)
open Relation

variable {tree : FileTree} {process : Process} {resolve : PathBuf → PathBuf → PathBuf} {fuel : ℕ} {path : PathBuf}

/-! ## Rules for includes -/

/-- where the include of a file leads, under a rule for the including path and the path it names -/
def includeVia (tree : FileTree) (process : Process) (resolve : PathBuf → PathBuf → PathBuf) (path : PathBuf) :
    Option PathBuf :=
  match tree.read process path with
  | .error _ => none
  | .ok env => env.included.map (resolve path)

/-- loading under such a rule -/
def loadVia (tree : FileTree) (process : Process) (resolve : PathBuf → PathBuf → PathBuf) :
    ℕ → PathBuf → Option (Except ConfigError JsonValue)
  | 0, _ => none
  | fuel + 1, path =>
    match tree.read process path with
    | .error error => some (.error error)
    | .ok env =>
      let merged := match env.included with
        | some rel => loadVia tree process resolve fuel (resolve path rel)
        | none => some (.ok (.object []))
      merged.map fun result => result.map fun value => value.merge (.object env.rest)

/-- the code resolves every include alike, whatever file it stands in -/
theorem loadConfigValue_eq (tree : FileTree) (process : Process) (fuel : ℕ) (path : PathBuf) :
    loadConfigValue tree process fuel path = loadVia tree process (fun _ => process.incPath) fuel path := by
  induction fuel generalizing path with
  | zero => rfl
  | succ fuel ih =>
    unfold loadConfigValue loadVia
    cases tree.read process path with
    | error error => rfl
    | ok env =>
      cases hinc : env.included with
      | none => simp only [hinc]
      | some rel => simp only [hinc, ih]

/-- a load returns exactly when the includes end within its fuel -/
theorem loadVia_isSome :
    (loadVia tree process resolve fuel path).isSome ↔ EndsWithin (includeVia tree process resolve) fuel path := by
  induction fuel generalizing path with
  | zero => simp [loadVia, EndsWithin]
  | succ fuel ih =>
    simp only [loadVia, EndsWithin, Move, includeVia]
    cases tree.read process path with
    | error error => simp
    | ok env =>
      cases hinc : env.included with
      | none => simp [hinc]
      | some rel => simpa [hinc] using ih

/-! ## Termination -/

/-- only a file that is there includes another -/
theorem place_mem_of_includes {next : PathBuf} (h : Move (includeVia tree process resolve) path next) :
    tree.place process path ∈ tree.files.map Prod.fst := by
  unfold Move includeVia FileTree.read FileTree.readPlace at h
  cases hfile : tree.files.lookup (tree.place process path) with
  | none => rw [hfile] at h; cases h
  | some text =>
    obtain ⟨before, after, hfiles, -⟩ := List.lookup_eq_some_iff.1 hfile
    rw [hfiles]
    simp

/-- loading the first path, the code goes on with the second -/
def Includes (tree : FileTree) (process : Process) : PathBuf → PathBuf → Prop :=
  Move (includeVia tree process fun _ => process.incPath)

/-- some path is reached that leads back to itself -/
def LeadsIntoCycle (tree : FileTree) (process : Process) (path : PathBuf) : Prop :=
  ∃ q, ReflTransGen (Includes tree process) path q ∧ TransGen (Includes tree process) q q

/-- without a cycle, one read more than there are files is enough -/
theorem isSome_of_no_cycle (h : ¬ LeadsIntoCycle tree process path) :
    (loadConfigValue tree process (tree.files.length + 1) path).isSome := by
  rw [loadConfigValue_eq, loadVia_isSome, ← List.length_map Prod.fst]
  refine (Core.endsWithin_iff_acyclic (tree.place process) _ (fun _ _ => place_mem_of_includes) ?_).2 h
  intro p q hplace
  simp only [includeVia, FileTree.read, hplace]

/-- a load that returns met no cycle -/
theorem no_cycle_of_isSome (h : (loadConfigValue tree process fuel path).isSome) :
    ¬ LeadsIntoCycle tree process path := by
  rw [loadConfigValue_eq, loadVia_isSome] at h
  exact h.no_cycle

/-- the load returns exactly when the includes lead into no cycle -/
theorem load_terminates_iff (tree : FileTree) (process : Process) (path : PathBuf) :
    (∃ fuel, (loadConfigValue tree process fuel path).isSome) ↔ ¬ LeadsIntoCycle tree process path :=
  ⟨fun ⟨_, h⟩ => no_cycle_of_isSome h, fun h => ⟨_, isSome_of_no_cycle h⟩⟩

/-- `/etc/a.json`, which includes `a.json` -/
def selfIncluding : FileTree where
  walk := id
  files := [(["etc", "a.json"], .document { included := some ⟨false, ["a.json"]⟩ })]

/-- started in `/etc`, the daemon never comes back from the file that includes itself -/
theorem self_include_never_returns :
    ¬ ∃ fuel, (loadConfigValue selfIncluding ⟨["etc"], ⟨true, []⟩⟩ fuel ⟨true, ["etc", "a.json"]⟩).isSome := by
  rintro ⟨fuel, h⟩
  have hfirst : Includes selfIncluding ⟨["etc"], ⟨true, []⟩⟩ ⟨true, ["etc", "a.json"]⟩ ⟨false, ["a.json"]⟩ := rfl
  have hagain : Includes selfIncluding ⟨["etc"], ⟨true, []⟩⟩ ⟨false, ["a.json"]⟩ ⟨false, ["a.json"]⟩ := rfl
  exact no_cycle_of_isSome h ⟨⟨false, ["a.json"]⟩, .single hfirst, .single hagain⟩

end IoThreadController
