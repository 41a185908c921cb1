/-
Where includes lead.

The documentation resolves an include relative to the including file. `load_config_value` resolves it relative to the
working directory of the process: the base it takes is the parent of `.`, not of the file it reads.

- `LoadedVia`: what a load gives under a rule for includes. `documentedLoad_cwd` shows that under the documented rule
  the working directory does not matter, `loadedVia_alone` that a file without include and null keys loads as its own
  keys.
- `loadedVia_iff_trail`: a load is the stack of the files on its trail, or the error at the trail's end.
- `includes_relative_iff`: whatever keys the files hold, the code loads as documented exactly when every relative
  include on the way names the same file from the working directory as from its own, or both ways end in the same error.
- `include_missed_from_root`: a daemon started in `/` does not find the include beside its configuration file.
-/
import IoThreadController.Config.Loading

namespace IoThreadController

open IoThreadController.Core (Json Move EndsWithin)
open Relation

variable {tree : FileTree} {process : Process} {resolve : PathBuf → PathBuf → PathBuf} {path : PathBuf}
  {result : Except ConfigError JsonValue}

/-! ## What a load gives -/

/-- the load of a file when includes are resolved by a rule: the include's load, overridden by the file's other keys -/
inductive LoadedVia (tree : FileTree) (process : Process) (resolve : PathBuf → PathBuf → PathBuf) :
    PathBuf → Except ConfigError JsonValue → Prop where
  | fails {path : PathBuf} {error : ConfigError} (hread : tree.read process path = .error error) :
    LoadedVia tree process resolve path (.error error)
  | alone {path : PathBuf} {env : ConfigEnvelope} (hread : tree.read process path = .ok env)
    (hinc : env.included = none) :
    LoadedVia tree process resolve path (.ok ((Json.object []).merge (.object env.rest)))
  | included {path : PathBuf} {env : ConfigEnvelope} {rel : PathBuf} {base : Except ConfigError JsonValue}
    (hread : tree.read process path = .ok env) (hinc : env.included = some rel)
    (hbase : LoadedVia tree process resolve (resolve path rel) base) :
    LoadedVia tree process resolve path (base.map fun value => value.merge (.object env.rest))

theorem loadedVia_iff :
    LoadedVia tree process resolve path result ↔ ∃ fuel, loadVia tree process resolve fuel path = some result := by
  constructor
  · intro h
    induction h with
    | fails hread => exact ⟨1, by simp [loadVia, hread]⟩
    | alone hread hinc => exact ⟨1, by simp [loadVia, hread, hinc, Except.map]⟩
    | included hread hinc hbase ih =>
      obtain ⟨fuel, hfuel⟩ := ih
      exact ⟨fuel + 1, by simp [loadVia, hread, hinc, hfuel]⟩
  · rintro ⟨fuel, h⟩
    induction fuel generalizing path result with
    | zero => cases h
    | succ fuel ih =>
      unfold loadVia at h
      cases hread : tree.read process path with
      | error error =>
        rw [hread] at h
        cases h
        exact .fails hread
      | ok env =>
        rw [hread] at h
        cases hinc : env.included with
        | none =>
          simp only [hinc, Option.map_some, Option.some.injEq] at h
          subst h
          exact .alone hread hinc
        | some rel =>
          simp only [hinc, Option.map_eq_some_iff] at h
          obtain ⟨base, hbase, rfl⟩ := h
          exact .included hread hinc (ih hbase)

/-- a file without include and without null keys loads as its own keys -/
theorem loadedVia_alone {env : ConfigEnvelope} (hread : tree.read process path = .ok env) (hinc : env.included = none)
    (hplain : Json.PlainMembers env.rest) : LoadedVia tree process resolve path (.ok (.object env.rest)) := by
  have hload : LoadedVia tree process resolve path _ := .alone hread hinc
  have hpatch : (Json.object env.rest).Plain := hplain
  rwa [Json.merge_of_plain rfl hpatch] at hload

/-! ## The documented rule -/

/-- an include relative to the including file; an absolute one as `Path::new` reads it -/
def Process.siblingPath (process : Process) (path rel : PathBuf) : PathBuf :=
  if rel.absolute then process.newPath rel else (path.parent.getD path).join rel

/-- from an absolute path on, the documented rule stays with absolute paths -/
theorem siblingPath_absolute {rel : PathBuf} (hroot : process.rootPath.absolute = true) (hpath : path.absolute = true) :
    (process.siblingPath path rel).absolute = true := by
  have hparent : (path.parent.getD path).absolute = true := by
    unfold PathBuf.parent
    split_ifs <;> exact hpath
  unfold Process.siblingPath Process.newPath PathBuf.join
  cases hrel : rel.absolute with
  | true => simpa using hroot
  | false => simpa using hparent

/-- what loading a file is to give -/
def DocumentedLoad (tree : FileTree) (process : Process) : PathBuf → Except ConfigError JsonValue → Prop :=
  LoadedVia tree process process.siblingPath

/-- the working directory does not matter to the documented load of an absolute path -/
theorem documentedLoad_cwd {cwd cwd' : List String} {root : PathBuf} (hroot : root.absolute = true)
    (hpath : path.absolute = true) (h : DocumentedLoad tree ⟨cwd, root⟩ path result) :
    DocumentedLoad tree ⟨cwd', root⟩ path result := by
  have hsame : ∀ {p : PathBuf}, p.absolute = true → tree.read ⟨cwd, root⟩ p = tree.read ⟨cwd', root⟩ p := by
    intro p hp
    simp only [FileTree.read, FileTree.place, Process.absoluteComps, hp, if_true]
  induction h with
  | fails hread => exact .fails (hsame hpath ▸ hread)
  | alone hread hinc => exact .alone (hsame hpath ▸ hread) hinc
  | included hread hinc hbase ih => exact .included (hsame hpath ▸ hread) hinc (ih (siblingPath_absolute hroot hpath))

/-! ## Trails -/

/-- the places of the files that a load reads, and the error that ends it, if any -/
inductive Trail (tree : FileTree) (process : Process) (resolve : PathBuf → PathBuf → PathBuf) :
    PathBuf → List (List String) → Option ConfigError → Prop where
  | fails {path : PathBuf} {error : ConfigError} (hread : tree.read process path = .error error) :
    Trail tree process resolve path [] (some error)
  | alone {path : PathBuf} {env : ConfigEnvelope} (hread : tree.read process path = .ok env)
    (hinc : env.included = none) : Trail tree process resolve path [tree.place process path] none
  | included {path : PathBuf} {env : ConfigEnvelope} {rel : PathBuf} {places : List (List String)}
    {error : Option ConfigError} (hread : tree.read process path = .ok env) (hinc : env.included = some rel)
    (hrest : Trail tree process resolve (resolve path rel) places error) :
    Trail tree process resolve path (tree.place process path :: places) error

theorem move_of_included {env : ConfigEnvelope} {rel : PathBuf} (hread : tree.read process path = .ok env)
    (hinc : env.included = some rel) : Move (includeVia tree process resolve) path (resolve path rel) := by
  simp [Move, includeVia, hread, hinc]

/-- a move goes from a file to the path of its include -/
theorem included_of_move {next : PathBuf} (h : Move (includeVia tree process resolve) path next) :
    ∃ env rel, tree.read process path = .ok env ∧ env.included = some rel ∧ next = resolve path rel := by
  unfold Move includeVia at h
  cases hread : tree.read process path with
  | error error => rw [hread] at h; cases h
  | ok env =>
    rw [hread] at h
    obtain ⟨rel, hinc, rfl⟩ := Option.map_eq_some_iff.1 h
    exact ⟨env, rel, rfl, hinc, rfl⟩

namespace Trail
variable {places places' : List (List String)} {error error' : Option ConfigError}

theorem unique (h : Trail tree process resolve path places error)
    (h' : Trail tree process resolve path places' error') : places = places' ∧ error = error' := by
  induction h generalizing places' error' with
  | fails hread => cases h' <;> simp_all
  | alone hread hinc => cases h' <;> simp_all
  | included hread hinc hrest ih =>
    cases h' with
    | fails hread' => simp_all
    | alone hread' hinc' => simp_all
    | included hread' hinc' hrest' =>
      obtain rfl := Except.ok.inj (hread.symm.trans hread')
      obtain rfl := Option.some.inj (hinc.symm.trans hinc')
      obtain ⟨rfl, rfl⟩ := ih hrest'
      exact ⟨rfl, rfl⟩

/-- includes that end leave a trail -/
theorem of_endsWithin {n : ℕ} (h : EndsWithin (includeVia tree process resolve) n path) :
    ∃ places error, Trail tree process resolve path places error := by
  induction n generalizing path with
  | zero => exact h.elim
  | succ n ih =>
    cases hread : tree.read process path with
    | error error => exact ⟨_, _, .fails hread⟩
    | ok env =>
      cases hinc : env.included with
      | none => exact ⟨_, _, .alone hread hinc⟩
      | some rel =>
        obtain ⟨places, error, hrest⟩ := ih (h _ (move_of_included hread hinc))
        exact ⟨_, _, .included hread hinc hrest⟩

theorem endsWithin (h : Trail tree process resolve path places error) :
    ∃ n, EndsWithin (includeVia tree process resolve) n path := by
  induction h with
  | fails hread => exact ⟨1, fun t hmove => by simp [Move, includeVia, hread] at hmove⟩
  | alone hread hinc => exact ⟨1, fun t hmove => by simp [Move, includeVia, hread, hinc] at hmove⟩
  | included hread hinc hrest ih =>
    obtain ⟨n, hends⟩ := ih
    exact ⟨n + 1, fun t hmove => hmove.unique (move_of_included hread hinc) ▸ hends⟩

/-- a trail that ends well begins at the file itself -/
theorem head_eq (h : Trail tree process resolve path places none) : places.head? = some (tree.place process path) := by
  cases h <;> rfl

/-- every place on a trail is the place of a path that the includes lead to -/
theorem reach_of_mem (h : Trail tree process resolve path places error) {place : List String} (hmem : place ∈ places) :
    ∃ p, ReflTransGen (Move (includeVia tree process resolve)) path p ∧ place = tree.place process p := by
  induction h with
  | fails hread => cases hmem
  | alone hread hinc => exact ⟨_, .refl, List.mem_singleton.1 hmem⟩
  | included hread hinc hrest ih =>
    rcases List.mem_cons.1 hmem with rfl | hmem
    · exact ⟨_, .refl, rfl⟩
    · obtain ⟨p, hreach, hplace⟩ := ih hmem
      exact ⟨p, .head (move_of_included hread hinc) hreach, hplace⟩

/-- a trail on which no place comes back has no place twice -/
theorem nodup (h : Trail tree process resolve path places error)
    (hfresh : ∀ p q, ReflTransGen (Move (includeVia tree process resolve)) path p →
      TransGen (Move (includeVia tree process resolve)) p q → tree.place process p ≠ tree.place process q) :
    places.Nodup := by
  induction h with
  | fails hread => exact List.nodup_nil
  | alone hread hinc => exact List.nodup_singleton _
  | included hread hinc hrest ih =>
    have hmove : Move (includeVia tree process resolve) _ _ := move_of_included hread hinc
    refine List.nodup_cons.2 ⟨fun hmem => ?_, ih fun p q hp => hfresh p q (.head hmove hp)⟩
    obtain ⟨p, hreach, hplace⟩ := hrest.reach_of_mem hmem
    exact hfresh _ p .refl (.head' hmove hreach) hplace

/-- the includes lead to the error that ends a trail -/
theorem reach_error {failure : ConfigError} (h : Trail tree process resolve path places (some failure)) :
    ∃ p, ReflTransGen (Move (includeVia tree process resolve)) path p ∧ tree.read process p = .error failure := by
  generalize herror : some failure = error at h
  induction h with
  | fails hread => cases herror; exact ⟨_, .refl, hread⟩
  | alone hread hinc => cases herror
  | included hread hinc hrest ih =>
    obtain ⟨p, hreach, hfail⟩ := ih herror
    exact ⟨p, .head (move_of_included hread hinc) hreach, hfail⟩

/-- a failing file that the includes lead to ends the trail -/
theorem of_reach_error {failure : ConfigError} {p : PathBuf}
    (hreach : ReflTransGen (Move (includeVia tree process resolve)) path p)
    (hfail : tree.read process p = .error failure) :
    ∃ places, Trail tree process resolve path places (some failure) := by
  induction hreach using ReflTransGen.head_induction_on with
  | refl => exact ⟨[], .fails hfail⟩
  | head hmove _ ih =>
    obtain ⟨env, rel, hread, hinc, rfl⟩ := included_of_move hmove
    obtain ⟨places, hrest⟩ := ih
    exact ⟨_, .included hread hinc hrest⟩

end Trail

/-! ## Keys -/

/-- the same files with other keys: place by place, whatever is given -/
def FileTree.withKeys (tree : FileTree) (keys : List String → Members) : FileTree where
  walk := tree.walk
  files := tree.files.map fun file => (file.1, match file.2 with
    | .document env => .document { env with rest := keys file.1 }
    | text => text)

theorem readPlace_withKeys (tree : FileTree) (keys : List String → Members) (place : List String) :
    (tree.withKeys keys).readPlace place = (tree.readPlace place).map fun env => { env with rest := keys place } := by
  obtain ⟨walk, files⟩ := tree
  induction files with
  | nil => rfl
  | cons file files ih =>
    obtain ⟨at', text⟩ := file
    by_cases hat : place = at'
    · subst hat
      cases text <;> simp [FileTree.readPlace, FileTree.withKeys, Except.map]
    · have hbeq : (place == at') = false := beq_eq_false_iff_ne.2 hat
      simpa only [FileTree.readPlace, FileTree.withKeys, List.map_cons, List.lookup_cons, hbeq] using ih

theorem read_withKeys (tree : FileTree) (keys : List String → Members) (path : PathBuf) :
    (tree.withKeys keys).read process path =
      (tree.read process path).map fun env => { env with rest := keys (tree.place process path) } :=
  readPlace_withKeys tree keys _

theorem read_withKeys_error {keys : List String → Members} {error : ConfigError} :
    (tree.withKeys keys).read process path = .error error ↔ tree.read process path = .error error := by
  rw [read_withKeys]
  cases tree.read process path <;> simp [Except.map]

theorem read_withKeys_ok {keys : List String → Members} {env' : ConfigEnvelope} :
    (tree.withKeys keys).read process path = .ok env' ↔
      ∃ env, tree.read process path = .ok env ∧ env' = { env with rest := keys (tree.place process path) } := by
  rw [read_withKeys]
  cases tree.read process path <;> simp [Except.map, eq_comm]

/-- what a trail comes to under given keys: the error at its end, or its files on top of each other -/
def trailResult (keys : List String → Members) (places : List (List String)) :
    Option ConfigError → Except ConfigError JsonValue
  | some error => .error error
  | none => .ok (.object (Json.layers (places.map keys)))

/-- a load is its trail -/
theorem loadedVia_iff_trail {keys : List String → Members} :
    LoadedVia (tree.withKeys keys) process resolve path result ↔
      ∃ places error, Trail tree process resolve path places error ∧ result = trailResult keys places error := by
  constructor
  · intro h
    induction h with
    | fails hread => exact ⟨[], _, .fails (read_withKeys_error.1 hread), rfl⟩
    | alone hread hinc =>
      obtain ⟨env, hold, rfl⟩ := read_withKeys_ok.1 hread
      exact ⟨_, none, .alone hold hinc, rfl⟩
    | included hread hinc hbase ih =>
      obtain ⟨env, hold, rfl⟩ := read_withKeys_ok.1 hread
      obtain ⟨places, error, hrest, rfl⟩ := ih
      exact ⟨_, error, .included hold hinc hrest, by cases error <;> rfl⟩
  · rintro ⟨places, error, h, rfl⟩
    induction h with
    | fails hread => exact .fails (read_withKeys_error.2 hread)
    | alone hread hinc =>
      have hload : LoadedVia (tree.withKeys keys) process resolve _ _ :=
        .alone (read_withKeys_ok.2 ⟨_, hread, rfl⟩) hinc
      exact hload
    | @included path env rel places error hread hinc hrest ih =>
      have hload : LoadedVia (tree.withKeys keys) process resolve path _ :=
        .included (read_withKeys_ok.2 ⟨_, hread, rfl⟩) hinc ih
      cases error <;> exact hload

/-! ## Two rules on one way -/

/-- the file that the documented rule reads after another -/
def IncludesBeside (tree : FileTree) (process : Process) : PathBuf → PathBuf → Prop :=
  Move (includeVia tree process process.siblingPath)

/-- every relative include on the documented way names the same file from the working directory as from its own -/
def SameFiles (tree : FileTree) (process : Process) (path : PathBuf) : Prop :=
  ∀ p env rel, ReflTransGen (IncludesBeside tree process) path p → tree.read process p = .ok env →
    env.included = some rel → rel.absolute = false →
      tree.place process (process.incPath rel) = tree.place process (process.siblingPath p rel)

/-- both rules run into a file that fails to load, with one and the same error -/
def FailAlike (tree : FileTree) (process : Process) (path : PathBuf) : Prop :=
  ∃ error, (∃ p, ReflTransGen (Includes tree process) path p ∧ tree.read process p = .error error) ∧
    ∃ q, ReflTransGen (IncludesBeside tree process) path q ∧ tree.read process q = .error error

/-- no file on the documented way is included, directly or not, by itself -/
def NoIncludeCycle (tree : FileTree) (process : Process) (path : PathBuf) : Prop :=
  ∀ p q, ReflTransGen (IncludesBeside tree process) path p → TransGen (IncludesBeside tree process) p q →
    tree.place process p ≠ tree.place process q

/-- an absolute include leads to one path under both rules -/
theorem incPath_eq_siblingPath {rel : PathBuf} (h : rel.absolute = true) :
    process.incPath rel = process.siblingPath path rel := by
  simp [Process.incPath, Process.siblingPath, PathBuf.join, h]

/-- without cycles the documented rule leaves a trail, on which no place comes back -/
theorem documented_trail (hacyclic : NoIncludeCycle tree process path) :
    ∃ places error, Trail tree process process.siblingPath path places error ∧ places.Nodup := by
  have hends := Core.endsWithin_of_labels (tree.place process) (tree.files.map Prod.fst)
    (fun _ _ _ hmove => place_mem_of_includes hmove) (fun p q _ hp hpq _ => hacyclic p q hp hpq)
  obtain ⟨places, error, h⟩ := Trail.of_endsWithin hends
  exact ⟨places, error, h, h.nodup hacyclic⟩

/-- on the code's own trail no place comes back -/
theorem code_trail_nodup {places : List (List String)} {error : Option ConfigError}
    (h : Trail tree process (fun _ => process.incPath) path places error) : places.Nodup := by
  obtain ⟨n, hends⟩ := h.endsWithin
  refine h.nodup fun p q hp hpq => Core.label_ne_of_no_cycle ?_ hends.no_cycle hp hpq
  intro p q hplace
  simp only [includeVia, FileTree.read, hplace]

/-- with the same files on the way, the code leaves the documented trail -/
theorem code_trail_of_sameFiles {places : List (List String)} {error : Option ConfigError}
    (h : Trail tree process process.siblingPath path places error) (hsame : SameFiles tree process path)
    {path' : PathBuf} (hplace : tree.place process path' = tree.place process path) :
    Trail tree process (fun _ => process.incPath) path' places error := by
  induction h generalizing path' with
  | fails hread => exact .fails (by rw [FileTree.read, hplace]; exact hread)
  | alone hread hinc => exact hplace ▸ .alone (by rw [FileTree.read, hplace]; exact hread) hinc
  | @included path env rel places error hread hinc hrest ih =>
    have hmove : IncludesBeside tree process path _ := move_of_included hread hinc
    have hnext : tree.place process (process.incPath rel) = tree.place process (process.siblingPath path rel) := by
      cases hrel : rel.absolute with
      | true => rw [incPath_eq_siblingPath hrel]
      | false => exact hsame path env rel .refl hread hinc hrel
    have hrest' := ih (fun p env rel hp => hsame p env rel (.head hmove hp)) hnext
    exact hplace ▸ .included (by rw [FileTree.read, hplace]; exact hread) hinc hrest'

/-- two trails that end well and are the same go through the same files -/
theorem sameFiles_of_trails {places : List (List String)}
    (h : Trail tree process process.siblingPath path places none) {path' : PathBuf}
    (hplace : tree.place process path' = tree.place process path)
    (h' : Trail tree process (fun _ => process.incPath) path' places none) : SameFiles tree process path := by
  generalize herror : (none : Option ConfigError) = error at h
  induction h generalizing path' with
  | fails hread => cases herror
  | @alone path env hread hinc =>
    intro p env' rel' hp hread' hinc' _
    rcases ReflTransGen.cases_head hp with rfl | ⟨q, hmove, -⟩
    · obtain rfl := Except.ok.inj (hread.symm.trans hread')
      rw [hinc] at hinc'
      cases hinc'
    · obtain ⟨env'', rel'', hread'', hinc'', -⟩ := included_of_move hmove
      obtain rfl := Except.ok.inj (hread.symm.trans hread'')
      rw [hinc] at hinc''
      cases hinc''
  | @included path env rel places error hread hinc hrest ih =>
    have hread' : tree.read process path' = .ok env := by rw [FileTree.read, hplace]; exact hread
    subst herror
    rw [← hplace] at h'
    obtain ⟨hrest', hnext⟩ : Trail tree process (fun _ => process.incPath) (process.incPath rel) places none ∧
        tree.place process (process.incPath rel) = tree.place process (process.siblingPath path rel) := by
      cases h' with
      | alone hread'' hinc'' =>
        obtain rfl := Except.ok.inj (hread'.symm.trans hread'')
        rw [hinc] at hinc''
        cases hinc''
      | included hread'' hinc'' hrest' =>
        obtain rfl := Except.ok.inj (hread'.symm.trans hread'')
        obtain rfl := Option.some.inj (hinc.symm.trans hinc'')
        exact ⟨hrest', Option.some.inj (hrest'.head_eq.symm.trans hrest.head_eq)⟩
    intro p env' rel' hp hreadp hincp hrel
    rcases ReflTransGen.cases_head hp with rfl | ⟨q, hmove, hq⟩
    · obtain rfl := Except.ok.inj (hread.symm.trans hreadp)
      obtain rfl := Option.some.inj (hinc.symm.trans hincp)
      exact hnext
    · obtain rfl := hmove.unique (move_of_included hread hinc)
      exact ih hnext hrest' rfl p env' rel' hq hreadp hincp hrel

/-! ## The working directory -/

/-- the code's load gives exactly what is documented -/
def LoadsAsDocumented (tree : FileTree) (process : Process) (path : PathBuf) : Prop :=
  ∀ result, (∃ fuel, loadConfigValue tree process fuel path = some result) ↔ DocumentedLoad tree process path result

theorem loads_iff : (∃ fuel, loadConfigValue tree process fuel path = some result) ↔
    LoadedVia tree process (fun _ => process.incPath) path result := by
  simp only [loadConfigValue_eq, loadedVia_iff]

/-- one trail for both rules, or one error at the end of both, makes the loads agree -/
theorem loadsAsDocumented_of_trails {keys : List String → Members} {places places' : List (List String)}
    {error error' : Option ConfigError} (hdoc : Trail tree process process.siblingPath path places error)
    (hcode : Trail tree process (fun _ => process.incPath) path places' error')
    (hsame : trailResult keys places' error' = trailResult keys places error) :
    LoadsAsDocumented (tree.withKeys keys) process path := by
  intro result
  rw [loads_iff, DocumentedLoad, loadedVia_iff_trail, loadedVia_iff_trail]
  constructor
  · rintro ⟨_, _, h, rfl⟩
    obtain ⟨rfl, rfl⟩ := h.unique hcode
    exact ⟨places, error, hdoc, hsame⟩
  · rintro ⟨_, _, h, rfl⟩
    obtain ⟨rfl, rfl⟩ := h.unique hdoc
    exact ⟨places', error', hcode, hsame.symm⟩

/-- loads that agree under given keys come from trails that come to the same -/
theorem trails_of_loadsAsDocumented {keys : List String → Members} {places : List (List String)}
    {error : Option ConfigError} (hdoc : Trail tree process process.siblingPath path places error)
    (h : LoadsAsDocumented (tree.withKeys keys) process path) :
    ∃ places' error', Trail tree process (fun _ => process.incPath) path places' error' ∧
      trailResult keys places' error' = trailResult keys places error := by
  have hload := (h _).2 (loadedVia_iff_trail.2 ⟨places, error, hdoc, rfl⟩)
  rw [loads_iff, loadedVia_iff_trail] at hload
  obtain ⟨places', error', hcode, hsame⟩ := hload
  exact ⟨places', error', hcode, hsame.symm⟩

/-- whatever keys the files hold, the code loads as documented exactly when every relative include on the documented way
names the same file from the working directory, or both rules run into the same error -/
theorem includes_relative_iff (tree : FileTree) (process : Process) (path : PathBuf)
    (hacyclic : NoIncludeCycle tree process path) :
    (∀ keys, LoadsAsDocumented (tree.withKeys keys) process path) ↔
      SameFiles tree process path ∨ FailAlike tree process path := by
  obtain ⟨places, error, hdoc, hnodup⟩ := documented_trail hacyclic
  constructor
  · intro h
    obtain ⟨places', error', hcode, hsame⟩ := trails_of_loadsAsDocumented hdoc (h fun _ => [])
    cases error with
    | some failure =>
      cases error' with
      | some failure' =>
        obtain rfl : failure' = failure := by simpa [trailResult] using hsame
        exact .inr ⟨failure', hcode.reach_error, hdoc.reach_error⟩
      | none => simp [trailResult] at hsame
    | none =>
      cases error' with
      | some failure' => simp [trailResult] at hsame
      | none =>
        have hplaces : places' = places := by
          have hmarks : Scalar.bool false ≠ Scalar.bool true := by simp
          refine Json.layers_inj hmarks (code_trail_nodup hcode) hnodup fun keys : List String → Members => ?_
          obtain ⟨places'', error'', hcode', hkeys⟩ := trails_of_loadsAsDocumented hdoc (h keys)
          obtain ⟨rfl, rfl⟩ := hcode'.unique hcode
          simpa [trailResult] using hkeys
        exact .inl (sameFiles_of_trails hdoc rfl (hplaces ▸ hcode))
  · rintro (hsame | ⟨failure, ⟨p, hp, hfail⟩, q, hq, hfail'⟩) keys
    · exact loadsAsDocumented_of_trails hdoc (code_trail_of_sameFiles hdoc hsame rfl) rfl
    · obtain ⟨places', hcode⟩ := Trail.of_reach_error hp hfail
      obtain ⟨places'', hdoc'⟩ := Trail.of_reach_error hq hfail'
      exact loadsAsDocumented_of_trails hdoc' hcode rfl

/-! ## A site file beside the main file -/

def mainPath : PathBuf := ⟨true, ["etc", "io-thread-controller.json"]⟩

/-- `/etc/io-thread-controller.json`, which includes `site.json`, and `/etc/site.json` -/
def siteTree : FileTree where
  walk := id
  files := [
    (["etc", "io-thread-controller.json"], .document { included := some ⟨false, ["site.json"]⟩ }),
    (["etc", "site.json"], .document { rest := [("cooldown_secs", .scalar (.number 60))] })]

/-- started in `/`, the daemon does not find `site.json` -/
theorem include_missed_from_root : ¬ LoadsAsDocumented siteTree ⟨[], ⟨true, []⟩⟩ mainPath := by
  intro h
  obtain ⟨fuel, hload⟩ := (h _).2 (.included rfl rfl (.alone rfl rfl))
  match fuel, hload with
  | 0, hload => cases hload
  | 1, hload => cases hload
  | fuel + 2, hload =>
    have hmissed : loadConfigValue siteTree ⟨[], ⟨true, []⟩⟩ (fuel + 2) mainPath = some (.error (.io .notFound)) := rfl
    rw [hmissed] at hload
    cases hload

/-- the main file leads to the site file, and no further -/
theorem siteTree_way {cwd : List String} {p q : PathBuf}
    (hp : ReflTransGen (IncludesBeside siteTree ⟨cwd, ⟨true, []⟩⟩) mainPath p)
    (hmove : IncludesBeside siteTree ⟨cwd, ⟨true, []⟩⟩ p q) :
    p = mainPath ∧ q = ⟨true, ["etc", "site.json"]⟩ := by
  have hfirst : IncludesBeside siteTree ⟨cwd, ⟨true, []⟩⟩ mainPath ⟨true, ["etc", "site.json"]⟩ := rfl
  rcases ReflTransGen.cases_head hp with rfl | ⟨r, hr, hrp⟩
  · exact ⟨rfl, hmove.unique hfirst⟩
  · obtain rfl := hr.unique hfirst
    rcases ReflTransGen.cases_head hrp with rfl | ⟨s, hs, -⟩
    · cases hmove
    · cases hs

theorem siteTree_acyclic (cwd : List String) : NoIncludeCycle siteTree ⟨cwd, ⟨true, []⟩⟩ mainPath := by
  intro p q hp hpq
  obtain ⟨r, hmove, hrq⟩ := TransGen.head'_iff.1 hpq
  obtain ⟨rfl, rfl⟩ := siteTree_way hp hmove
  rcases ReflTransGen.cases_head hrq with rfl | ⟨s, hs, -⟩
  · show ["etc", "io-thread-controller.json"] ≠ ["etc", "site.json"]
    decide
  · cases hs

theorem siteTree_sameFiles : SameFiles siteTree ⟨["etc"], ⟨true, []⟩⟩ mainPath := by
  intro p env rel hp hread hinc _
  obtain ⟨rfl, -⟩ := siteTree_way hp (move_of_included hread hinc)
  cases hread
  cases hinc
  rfl

/-- started beside its configuration file, the daemon finds the same files and loads as documented -/
theorem includes_relative_iff_started_beside : SameFiles siteTree ⟨["etc"], ⟨true, []⟩⟩ mainPath ∧
    ∀ keys, LoadsAsDocumented (siteTree.withKeys keys) ⟨["etc"], ⟨true, []⟩⟩ mainPath :=
  ⟨siteTree_sameFiles, (includes_relative_iff siteTree _ mainPath (siteTree_acyclic _)).2 (.inl siteTree_sameFiles)⟩

end IoThreadController
