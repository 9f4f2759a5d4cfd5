/-
# Traceability.Main -- the program

The program reads the files that its command will look at into a `FileTree`,
runs the command on it, writes back what the command has changed, and prints
what it says.  Which files a command can look at follows from the
configuration, the store and the patch, so they are read in that order; what lies
beside the store is read too.  The halves of surrogate pairs are read as characters that
no text at hand has, and a line with one of them cannot be said.
-/
import Std.Time.DateTime.Timestamp
import Traceability.CommandLine.Commands
import Traceability.Toml.Reader
import Traceability.Toml.Writer

namespace Traceability.Program

set_option autoImplicit false

open CommandLine

/-! ## Reading -/

def onDisk (place : List String) : IO.FS.DirEntry := ⟨"/", "/".intercalate place⟩

/-- The tree with what the file system holds along the names from a place. -/
def lookFrom (tree : FileTree) (place : List String) : List String → IO FileTree
  | [] => return tree
  | name :: rest => do
      if name = ".." then lookFrom tree place.dropLast rest
      else
        let place := place ++ [name]
        let path := (onDisk place).path
        if ← path.isDir then lookFrom (tree.setEntry place .directory) place rest
        else if ← path.pathExists then
          let octets ← IO.FS.readBinFile path
          return tree.setEntry place (.file octets.toList)
        else return tree

/-- The tree with what the file system holds along some absolute paths. -/
def look (tree : FileTree) (paths : List Path) : IO FileTree :=
  paths.foldlM (fun tree path => lookFrom tree [] path.names) tree

/-! ## What a command looks at -/

def rootOf (host : Host) (options : CommonOptions) : Path :=
  Path.resolve host.around.directory (options.root.getD host.around.directory)

/-- The configuration files that may be in force, and the patch. -/
def firstPaths (host : Host) (invocation : Invocation) : List Path :=
  let options := invocation.options
  let patch := match invocation.command with
    | .simulate patch _ _ => [Path.ofString patch]
    | _ => []
  (rootOf host options).ancestors.map (·.join (Path.ofString Config.fileName)) ++
    (options.config.toList ++ patch).map host.around.directory.join

def documentPaths (workspace : Workspace) : List Path :=
  [workspace.storePath, workspace.snapshotPath, workspace.taskTreePath,
    workspace.rationaleMapPath].filterMap Except.toOption

/-- What lies beside the file at a path, for the names of drafts are new ones there. -/
def pathsBeside (path : Path) : IO (List Path) := do
  let directory := (onDisk path.parent.names).path
  unless ← directory.isDir do return []
  return (← directory.readDir).toList.map fun entry =>
    ⟨path.anchor, path.parent.names ++ [entry.fileName]⟩

def namedPaths (host : Host) (workspace : Workspace) (tree : FileTree) (command : Command) :
    List Path :=
  let store := ((workspace.storePath >>= Store.load tree).toOption).getD Store.empty
  let sections_ := match command with
    | .simulate patch _ _ =>
        match readPatchText host tree patch with
        | .ok (.ok text) => readPatch text
        | _ => []
    | _ => []
  (store.targets.map (·.2.filePath) ++ sections_.map (·.path)).map workspace.resolve

/-- The tree on a disk that reads halves as characters which neither its names and files nor standard
input have. -/
def withDisk (host : Host) (tree : FileTree) : FileTree :=
  let texts := tree.entries.flatMap fun (place, entry) =>
    place.flatMap String.toList ++ match entry with
      | .file octets => FileTree.lossyTextOf octets
      | .directory => []
  { tree with disk := .limited (.apartFrom (host.input ++ texts)) }

def gather (host : Host) (invocation : Invocation) : IO FileTree := do
  let start := host.around.directory :: firstPaths host invocation
  let tree ← look (FileTree.empty (.limited {})) start
  match host.workspace invocation.options tree with
  | .error _ => return withDisk host tree
  | .ok workspace =>
      let beside ← workspace.storePath.toOption.toList.mapM pathsBeside
      let tree ← look tree (documentPaths workspace ++ beside.flatten)
      return withDisk host (← look tree (namedPaths host workspace tree invocation.command))

/-! ## Writing -/

def writeBack (before after : FileTree) : IO Unit :=
  after.entries.forM fun (place, entry) => do
    unless before.entryAt? place = some entry do
      match entry with
      | .directory => IO.FS.createDirAll (onDisk place).path
      | .file octets => IO.FS.writeBinFile (onDisk place).path (ByteArray.mk octets.toArray)

/-! ## Surroundings -/

/-- The name and the value in an entry of the environment. -/
def variableOf? (entry : Text) : Option (String × String) :=
  let name := entry.takeWhile (· ≠ '=')
  match entry.drop name.length with
  | _ :: value => some (String.ofList name, String.ofList value)
  | [] => none

/-- All environment variables in their order; of two with one name the first counts. -/
def readVariables : IO (List (String × String)) := do
  let octets ← IO.FS.readBinFile "/proc/self/environ"
  let entries := Text.split '\x00' (Text.Utf8.decodeLossy octets.toList)
  return (entries.filterMap variableOf?).eraseDupsBy fun one two => one.1 == two.1

def readClock : IO ZonedTime := do
  let epoch := Calendar.daysBefore 1970 1 1 * 86400000000
  let now ← Std.Time.Timestamp.now
  return ZonedTime.ofInstant (epoch + (now.toNanosecondsSinceUnixEpoch.val / 1000).toNat)

/-- Does the command read its patch from standard input? -/
def readsInput : Command → Bool
  | .simulate patch _ _ => patch = "-"
  | _ => false

def readHost (command : Command) : IO Host := do
  let input ← if readsInput command then (← IO.getStdin).readToEnd else pure ""
  return {
    around := ⟨Path.ofString (← IO.currentDir).toString, ← readVariables, Toml.read?⟩
    renderStarter := Toml.render
    modules := []
    now := ← readClock
    input := Text.unifyLineEnds input.toList }

def usage : List String :=
  ["usage: hybrid-matrix [-h] [--version] [-w ROOT] [--config PATH] [-v] [-q] COMMAND ...", "",
    "commands:",
    "  sync                                 validate every link and save the store",
    "  inject                               insert tags into the targets of BROKEN links",
    "  simulate [--mode MODE] [-j] [PATCH]  check whether a patch would break a tracked link",
    "  context NODE_ID                      print what is known about an identifier",
    "  report [-j]                          show link health and the integrity score",
    "  init [--force]                       create .hybrid-matrix.toml"]

/-- Runs an invocation; the result is the exit status. -/
def execute (invocation : Invocation) : IO UInt32 := do
  let host ← readHost invocation.command
  let tree ← gather host invocation
  let host := { host with
    unsaid? := fun _ line => (tree.disk.halves.fault? line.toList).map .notEncodable }
  let outcome := run host tree invocation
  writeBack tree outcome.tree
  IO.print (streamText outcome.output)
  IO.eprint (streamText outcome.notices)
  match outcome.ending with
  | .ok status => return status.toUInt32
  | .error failure => throw (IO.userError failure.message)

end Traceability.Program

open Traceability Traceability.CommandLine in
def main (arguments : List String) : IO UInt32 := do
  match Invocation.ofWords arguments with
  | .ok invocation => Program.execute invocation
  | .error .help =>
      IO.print (streamText Program.usage)
      return 0
  | .error .version =>
      IO.print (streamText [versionLine])
      return 0
  | .error .misuse =>
      IO.eprint (streamText Program.usage)
      return 2
