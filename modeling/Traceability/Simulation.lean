/-
# Traceability.Simulation -- would a patch break a link?

A simulation applies a patch in memory and looks at every patched file that
exists and that some link tracks.  Three things are violations: a tracked
construct is gone, a tracked construct that had its expected fingerprint before
the patch has another one after it, and a tag is gone.  Nothing is written.  The disk is
taken to say what lies at the patched files, and to open them.
-/
import Traceability.Patch.Reader
import Traceability.StructuralParser
import Traceability.Workspace

namespace Traceability

set_option autoImplicit false

/-- What a patch would break. -/
inductive ViolationKind where
  | constructMissing
  | logicDrift
  | tagRemoved
deriving DecidableEq, Repr

/-- The word for a kind of violation. -/
def ViolationKind.word : ViolationKind → String
  | .constructMissing => "construct.missing"
  | .logicDrift => "logic.drift"
  | .tagRemoved => "tag.removed"

/-- Something that a patch would break, with the link and the target it concerns. -/
structure Violation where
  kind : ViolationKind
  matrixId : String
  target : Target

namespace Violation

/-- The violation in words. -/
def message (violation : Violation) : String :=
  let name := violation.target.constructName.getD ""
  match violation.kind with
  | .constructMissing => s!"Target [{name}] was DELETED or RENAMED."
  | .logicDrift => s!"Target [{name}] logic changed. Matrix expects stability."
  | .tagRemoved => s!"Matrix tag [{violation.target.expectedTag}] was REMOVED."

def toJson (violation : Violation) : Json :=
  .object [("kind", .string violation.kind.word), ("matrix_id", .string violation.matrixId),
    ("file_path", .string violation.target.filePath),
    ("construct_name", Json.ofString? violation.target.constructName),
    ("message", .string violation.message)]

end Violation

/-- What a simulation found. -/
structure SimulationResult where
  violations : List Violation

namespace SimulationResult

/-- Does the patch break nothing? -/
def isSafe (result : SimulationResult) : Bool := result.violations.isEmpty

def verdict (result : SimulationResult) : String :=
  if result.isSafe then "SAFE_TO_APPLY" else "REJECTED"

def toJson (result : SimulationResult) : Json :=
  .object [("status", .string result.verdict),
    ("violations", .array (result.violations.map Violation.toJson))]

end SimulationResult

/-- What a simulation works with. -/
structure Simulator where
  workspace : Workspace
  tree : FileTree
  parser : StructuralParser
  mode : PatchMode

namespace Simulator

/-- The links and targets that track a file. -/
def tracked (simulator : Simulator) (store : Store) (file : String) : List (Link × Target) :=
  store.targets.filter fun pair => simulator.workspace.sameFile pair.2.filePath file

/-- What happens to the construct of a target.  `before` is the structure of the file as it is, and
`after` that of the file as the patch would leave it. -/
def constructViolation (before : Except Failure Node) (after : Node) (pair : Link × Target) :
    Except Failure (Option Violation) := do
  let (link, target) := pair
  let some name := target.construct? | return none
  let some construct := after.findConstruct? name
    | return some ⟨.constructMissing, link.matrixId, target⟩
  let some expected := target.expectedFingerprint.filter (· != "") | return none
  if construct.fingerprint = some expected then return none
  match (← before).findConstruct? name with
  | some old =>
      if old.fingerprint = some expected then return some ⟨.logicDrift, link.matrixId, target⟩
      else return none
  | none => return none

def tagViolation (after : Text) (pair : Link × Target) : Option Violation :=
  if Text.occursIn pair.2.expectedTag.toList after then none
  else some ⟨.tagRemoved, pair.1.matrixId, pair.2⟩

/-- The violations of the links that track a file with these octets. -/
def checkContent (simulator : Simulator) (section_ : FilePatch) (path : Path)
    (pairs : List (Link × Target)) (octets : List UInt8) : Except Failure (List Violation) := do
  let current := FileTree.lossyTextOf octets
  let patched ← (applyHunks simulator.mode section_.path current section_.hunks).mapError
    Failure.conflict
  let after ← simulator.parser.parse patched path.toString
  let before := simulator.parser.parse current path.toString
  let constructs ← pairs.mapM (constructViolation before after)
  return constructs.filterMap id ++ pairs.filterMap (tagViolation patched)

def checkFile (simulator : Simulator) (store : Store) (section_ : FilePatch) :
    Except Failure (List Violation) :=
  let path := simulator.workspace.resolve section_.path
  match simulator.tree.octets? path with
  | none => .ok []
  | some octets =>
      match simulator.tracked store section_.path with
      | [] => .ok []
      | pairs => simulator.checkContent section_ path pairs octets

/-- The simulation of a patch against a store. -/
def run (simulator : Simulator) (store : Store) (patch : Text) :
    Except Failure SimulationResult := do
  let violations ← (readPatch patch).mapM (simulator.checkFile store)
  return ⟨violations.flatten⟩

end Simulator

def PatchMode.ofJson (value : Json) : Except Failure PatchMode :=
  match value.string?.bind PatchMode.ofName? with
  | some mode => .ok mode
  | none => .error (.config (.unknownPatchMode value))

/-- The simulation of a patch in a workspace.  Without a store the one of the workspace counts, and
if that does not exist nothing is tracked; without a mode the one of the configuration counts. -/
def simulate (modules : ParserModules) (workspace : Workspace) (tree : FileTree) (patch : Text)
    (store : Option Store) (mode : Option Json) : Except Failure SimulationResult := do
  let choice ← Config.parser modules workspace.config
  let value ← match mode with
    | some value => pure value
    | none => workspace.setting "simulation" "patch_mode"
  let simulator : Simulator := ⟨workspace, tree, choice.toParser, ← PatchMode.ofJson value⟩
  match store with
  | some store => simulator.run store patch
  | none =>
      let path ← workspace.storePath
      if tree.has path then simulator.run (← Store.load tree path) patch else return ⟨[]⟩

end Traceability
