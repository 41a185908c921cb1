/-
Loading configuration files with includes (`config.rs`, with `Path` of `util.rs`): the files a process can read, paths
and where they lead, and `load_config_value`.

Reading, JSON parsing and the split of a file into `include` and the remaining keys are library code: a file is what
they come to. `json_patch::merge` is `Json.merge`. The recursion of `load_config_value` follows the files' own includes
without a measure, so the model counts the files it may still read: `none` is a load that needs more.
-/
import IoThreadController.Model.Config
import IoThreadController.Core.MergePatch

namespace IoThreadController

open IoThreadController.Core (Json)

/-- the scalars of a JSON document -/
inductive Scalar where
  | bool (value : Bool)
  | number (value : ℚ)
  | string (text : String)
deriving DecidableEq, Repr

abbrev JsonValue := Json String Scalar

/-- the members of a JSON object -/
abbrev Members := List (String × JsonValue)

/-! ## Paths -/

/-- `std::path::PathBuf`: whether it starts at the root, and the components as written between separators -/
structure PathBuf where
  absolute : Bool
  comps : List String
deriving DecidableEq, Repr

namespace PathBuf

/-- `Path::join`: an absolute path replaces the base -/
def join (base path : PathBuf) : PathBuf :=
  if path.absolute then path else { base with comps := base.comps ++ path.comps }

/-- `Path::parent`: the path without its last component, none for the root and the empty path -/
def parent (path : PathBuf) : Option PathBuf :=
  if path.comps = [] then none else some { path with comps := path.comps.dropLast }

end PathBuf

/-- what paths mean to the process: its working directory, and `IO_THREAD_CONTROLLER_ROOT_PATH` -/
structure Process where
  cwd : List String
  rootPath : PathBuf := ⟨true, []⟩
deriving DecidableEq, Repr

/-- `Path::new` of `util.rs`: an absolute path is moved below the root path -/
def Process.newPath (process : Process) (path : PathBuf) : PathBuf :=
  if path.absolute then process.rootPath.join { path with absolute := false } else path

/-- the components by which the kernel finds a path, from the root on -/
def Process.absoluteComps (process : Process) (path : PathBuf) : List String :=
  if path.absolute then path.comps else process.cwd ++ path.comps

/-! ## Files -/

/-- `ConfigEnvelope`: the `include` key as a path, and the other keys -/
structure ConfigEnvelope where
  included : Option PathBuf := none
  rest : Members := []

/-- what `read_to_string` and `serde_json::from_str::<ConfigEnvelope>` make of a file -/
inductive FileText where
  | unreadable (kind : ErrorKind)
  | malformed (text : String)
  | document (envelope : ConfigEnvelope)

/-- finitely many files, each at its place; `walk` is the kernel's walk over the components of an absolute path, through
links and `..`, to a place -/
structure FileTree where
  walk : List String → List String
  files : List (List String × FileText)

/-- the place that a path leads to -/
def FileTree.place (tree : FileTree) (process : Process) (path : PathBuf) : List String :=
  tree.walk (process.absoluteComps path)

/-- what stands at a place -/
def FileTree.readPlace (tree : FileTree) (place : List String) : Except ConfigError ConfigEnvelope :=
  match tree.files.lookup place with
  | none => .error (.io .notFound)
  | some (.unreadable kind) => .error (.io kind)
  | some (.malformed text) => .error (.serdeJson text)
  | some (.document envelope) => .ok envelope

/-- reading and parsing a file -/
def FileTree.read (tree : FileTree) (process : Process) (path : PathBuf) : Except ConfigError ConfigEnvelope :=
  tree.readPlace (tree.place process path)

/-! ## Loading -/

/-- the path that `load_config_value` gives to an include: the inner `path` is the working directory -/
def Process.incPath (process : Process) (rel : PathBuf) : PathBuf :=
  let path := process.newPath ⟨false, ["."]⟩
  process.newPath ((path.parent.getD path).join rel)

/-- `load_config_value`, reading at most `fuel` files -/
def loadConfigValue (tree : FileTree) (process : Process) : ℕ → PathBuf → Option (Except ConfigError JsonValue)
  | 0, _ => none
  | fuel + 1, path =>
    match tree.read process path with
    | .error error => some (.error error)
    | .ok env =>
      let merged := match env.included with
        | some rel => loadConfigValue tree process fuel (process.incPath rel)
        | none => some (.ok (.object []))
      merged.map fun result => result.map fun value => value.merge (.object env.rest)

end IoThreadController
