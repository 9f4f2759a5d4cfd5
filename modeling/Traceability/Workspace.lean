/-
# Traceability.Workspace -- a source tree and its configuration

A workspace has a root directory and the configuration in force there.  From
the configuration follow the places of its documents; a place or a setting that
is not of the type it has to be fails only when it is asked for.

How a configuration file is read is no matter of the workspace: its surroundings
bring a reader.  The disk is asked about a path before anything at it is looked
for, and what it denies is a failure (`FileTree.ask`).  So is a file that it does not open.
-/
import Traceability.Config
import Traceability.FileTree
import Traceability.Failure

namespace Traceability

set_option autoImplicit false

/-- A source tree with the configuration in force there. -/
structure Workspace where
  root : Path
  config : Json.Fields := Config.default

/-- What surrounds a workspace: the working directory, the environment variables, and what makes the
tables of a configuration text. -/
structure Surroundings where
  directory : Path
  environment : List (String × String)
  readToml : Text → Option Json.Fields

/-! ## Asking the disk -/

/-- Asks what lies at a path. -/
def FileTree.ask (tree : FileTree) (path : Path) : Except Failure Unit :=
  match tree.disk.denies path with
  | some reason => .error (.denied reason)
  | none => .ok ()

def FileTree.askAll (tree : FileTree) : List Path → Except Failure Unit
  | [] => .ok ()
  | path :: rest => do
      tree.ask path
      tree.askAll rest

/-- Asks what lies at a path, and what is in the file there if there is one. -/
def FileTree.look (tree : FileTree) (path : Path) : Except Failure Unit := do
  tree.ask path
  match tree.octets? path, tree.disk.hides path with
  | some _, some reason => throw (.unreadable (.refused reason))
  | _, _ => return ()

def FileTree.lookAll (tree : FileTree) : List Path → Except Failure Unit
  | [] => .ok ()
  | path :: rest => do
      tree.look path
      tree.lookAll rest

/-! ## Finding the configuration -/

namespace Config

/-- Where the configuration of a directory is looked for: in the directory and in those above it. -/
def candidates (directory : Path) : List Path :=
  directory.ancestors.map (·.join (Path.ofString fileName))

/-- The nearest configuration file in a directory or above it. -/
def find? (tree : FileTree) (directory : Path) : Option Path :=
  (candidates directory).find? fun path => (tree.octets? path).isSome

/-- What the disk is asked about until the configuration file is found. -/
def asked (tree : FileTree) (around : Surroundings) (file : Option Path) (directory : Path) :
    List Path :=
  match file with
  | some path => [around.directory.join path]
  | none =>
      match find? tree directory with
      | some found => (candidates directory).takeWhile (· ≠ found) ++ [found]
      | none => candidates directory

/-- The configuration of a file; `path` is its spelling in messages. -/
def ofFile (tree : FileTree) (around : Surroundings) (path : Path) :
    Except Failure Json.Fields := do
  let text ← match tree.readText (around.directory.join path) with
    | .ok text => pure text
    | .error .notUtf8 => throw (.unreadable .notUtf8)
    | .error cause => throw (.config (.unreadable path.toString cause))
  match around.readToml text with
  | some fields => return applyVariables (merge default fields) around.environment
  | none => throw (.config .invalidToml)

/-- The configuration in force in a directory: that of the given file, else that of the nearest
one, else the built-in one. -/
def inForce (tree : FileTree) (around : Surroundings) (file : Option Path) (directory : Path) :
    Except Failure Json.Fields := do
  tree.askAll (asked tree around file directory)
  match file.or (find? tree directory) with
  | none => return applyVariables default around.environment
  | some path =>
      if tree.has (around.directory.join path) then ofFile tree around path
      else throw (.config (.fileMissing path.toString))

end Config

namespace Workspace

def ofDirectory (tree : FileTree) (around : Surroundings) (directory : Path)
    (file : Option Path) : Except Failure Workspace := do
  let root := Path.resolve around.directory directory
  return ⟨root, ← Config.inForce tree around file root⟩

/-! ## Settings and places -/

/-- A setting; where the configuration says nothing or null, the built-in one. -/
def setting (workspace : Workspace) (part key : String) : Except Failure Json :=
  let builtIn := (((Json.field? Config.default part).bind Json.object?).bind
    (Json.field? · key)).getD .null
  match Json.field? workspace.config part with
  | none => .ok builtIn
  | some (.object fields) =>
      match Json.field? fields key with
      | none => .ok builtIn
      | some value => .ok (if value.isNull then builtIn else value)
  | some _ => .error .notATable

def pathSetting (workspace : Workspace) (key : String) : Except Failure Path := do
  let own ← match Json.field? workspace.config "paths" with
    | none => pure []
    | some (.object fields) => pure fields
    | some _ => throw .wrongType
  match (Json.field? own key).or (Json.field? Config.defaultPaths key) with
  | some (.string path) => return Path.ofString path
  | _ => throw .wrongType

def stateDirectory (workspace : Workspace) : Except Failure Path := do
  return workspace.root.join (← workspace.pathSetting "state_dir")

def statePath (workspace : Workspace) (key : String) : Except Failure Path := do
  return (← workspace.stateDirectory).join (← workspace.pathSetting key)

def storePath (workspace : Workspace) : Except Failure Path := workspace.statePath "store"

def snapshotPath (workspace : Workspace) : Except Failure Path := workspace.statePath "snapshot"

def taskTreePath (workspace : Workspace) : Except Failure Path := workspace.statePath "task_tree"

def rationaleMapPath (workspace : Workspace) : Except Failure Path := do
  return workspace.root.join (← workspace.pathSetting "rationale_map")

/-! ## Files -/

def resolve (workspace : Workspace) (file : String) : Path :=
  workspace.root.join (Path.ofString file)

/-- Do two spellings name the same file? -/
def sameFile (workspace : Workspace) (a b : String) : Bool :=
  (workspace.resolve a).normalize = (workspace.resolve b).normalize

/-- The node of a file in a snapshot: the first with that very id or path, else the first whose path
names the same file. -/
def fileNode? (workspace : Workspace) (snapshot : Snapshot) (file : String) : Option Node :=
  (snapshot.allNodes.find? fun node => node.id == file || node.filePath == file).or
    (snapshot.allNodes.find? fun node => workspace.sameFile node.filePath file)

end Workspace

/-! ## Documents -/

/-- The store at a path; without a file it is empty. -/
def Store.load (tree : FileTree) (path : Path) : Except Failure Store := do
  tree.ask path
  if tree.has path then
    match tree.readDocument path with
    | .error cause => throw (.store (.unreadable path.toString cause))
    | .ok document => (Store.ofJson document).mapError .store
  else return Store.empty

/-- A store that could not be saved: what is left of the files, and why. -/
structure Unsaved where
  tree : FileTree
  fault : WriteFault

def Unsaved.failure (unsaved : Unsaved) : Failure := .unwritten unsaved.fault

/-- The tree after a store has been saved at a path, its directory made if need be.  A draft is
written first, which gets the name of the file when it is whole.  So what was there stays if
anything fails; the draft may be left. -/
def Store.save (tree : FileTree) (path : Path) (store : Store) : Except Unsaved FileTree :=
  let made := tree.makeDirectories path.parent
  if made.entry? path.parent = some .directory then
    let drafting := made.write (made.draft path) store.text
    match drafting.fault, made.disk.refuses path with
    | some fault, _ => .error ⟨drafting.tree, fault⟩
    | none, some reason => .error ⟨drafting.tree, .refused reason⟩
    | none, none =>
        if made.hasRoom path then .ok (made.writeText path store.text)
        else .error ⟨drafting.tree, .noRoom⟩
  else .error ⟨made, .noRoom⟩

/-- The snapshot at a path, if there is a file. -/
def Snapshot.load? (tree : FileTree) (path : Path) : Except Failure (Option Snapshot) := do
  tree.ask path
  if tree.has path then
    match tree.readDocument path with
    | .error cause => throw (.snapshot (.unreadable path.toString cause))
    | .ok document => ((Snapshot.ofJson document).mapError .snapshot).map some
  else return none

end Traceability
