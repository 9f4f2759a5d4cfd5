/-
# Traceability.CommandLine.Commands -- what the commands do

A command looks at the files, and its outcome is what it leaves of them, what
it has to say, and how it ends (`Outcome`).  A command that only looks leaves the files as
they were.  One that fails may have done something before: `sync` may have made
the directory of the store and left a draft of it there, and `inject` may have come as
far as the target at which it breaks off.

`run` is one invocation.  It says the lines of the outcome one after the other, and
fails at the first that standard output does not take; standard error takes every
line.  A failure becomes a line among the notices and the exit status 1, unless the
verbose option asks for the failure itself.
-/
import Traceability.CommandLine.Invocation
import Traceability.Config.Starter
import Traceability.Context
import Traceability.Injection
import Traceability.Report
import Traceability.Simulation
import Traceability.Validation

namespace Traceability.CommandLine

set_option autoImplicit false

/-- What surrounds a command. -/
structure Host where
  around : Surroundings
  /-- How the starter configuration is laid out. -/
  renderStarter : Config.StarterDocument → Text
  modules : ParserModules
  now : ZonedTime
  /-- What standard input holds. -/
  input : Text
  words : DetailWords := {}
  /-- Why standard output does not take a line, after the lines that it has taken. -/
  unsaid? : List String → String → Option WriteFault := fun _ _ => none

/-- What a command leaves of the files, has to say and ends with. -/
structure Outcome where
  tree : FileTree
  /-- The lines for standard output. -/
  output : List String := []
  /-- The lines on standard error. -/
  notices : List String := []
  /-- The exit status, unless the command fails. -/
  ending : Except Failure Nat

namespace Outcome

/-- The outcome of a command that has said some things and fails. -/
def failed (tree : FileTree) (failure : Failure) (notices : List String := []) : Outcome :=
  ⟨tree, [], notices, .error failure⟩

def refused (tree : FileTree) (reason : String) (notices : List String := []) : Outcome :=
  ⟨tree, [], notices ++ ["Error: " ++ reason], .ok 1⟩

/-- The outcome of a command that only says something. -/
def said (tree : FileTree) (output : List String) (status : Nat := 0) : Outcome :=
  ⟨tree, output, [], .ok status⟩

end Outcome

def Host.workspace (host : Host) (options : CommonOptions) (tree : FileTree) :
    Except Failure Workspace :=
  Workspace.ofDirectory tree host.around (options.root.getD host.around.directory) options.config

/-! ## sync -/

/-- What `sync` finds before it validates. -/
structure SyncInput where
  workspace : Workspace
  storePath : Path
  store : Store
  snapshotPath : Path
  snapshot : Option Snapshot

/-- Reads what `sync` needs. -/
def SyncInput.read (host : Host) (options : CommonOptions) (tree : FileTree) :
    Except Failure SyncInput := do
  let workspace ← host.workspace options tree
  let storePath ← workspace.storePath
  let store ← Store.load tree storePath
  let snapshotPath ← workspace.snapshotPath
  return ⟨workspace, storePath, store, snapshotPath, ← Snapshot.load? tree snapshotPath⟩

/-- The paths of the targets that are looked at. -/
def SyncInput.targetPaths (input : SyncInput) : List Path :=
  input.store.targets.map fun pair => input.workspace.resolve pair.2.filePath

/-- The validation that `sync` asks for.  It needs what is in the files of the targets. -/
def SyncInput.validate (input : SyncInput) (tree : FileTree) (now : ZonedTime) :
    Except Failure ValidationReport := do
  let strict ← input.workspace.setting "validation" "strict_drift"
  let report ←
    Validator.run ⟨input.workspace, tree, input.snapshot, strict.isGiven⟩ input.store now
  tree.lookAll input.targetPaths
  return report

/-- The number of links with a target that does not pass, told apart by their identifiers. -/
def ValidationReport.brokenCount (report : ValidationReport) : Nat :=
  (report.failures.map (·.matrixId)).eraseDups.length

/-- What `sync` says at its end. -/
def syncSummary (report : ValidationReport) : List String :=
  let broken := ValidationReport.brokenCount report
  (if broken = 0 then [] else [s!"{broken} link(s) BROKEN."]) ++
    [s!"Sync Complete. Validated {report.store.links.length} links."]

/-- What `sync` says when there is no snapshot. -/
def SyncInput.missingSnapshot (input : SyncInput) (options : CommonOptions) : List String :=
  if input.snapshot.isNone && !options.quiet then
    [s!"Warning: No structural snapshot at {input.snapshotPath}; construct checks skipped"]
  else []

def sync (host : Host) (options : CommonOptions) (tree : FileTree) : Outcome :=
  match SyncInput.read host options tree with
  | .error failure => .failed tree failure
  | .ok input =>
      let notices := input.missingSnapshot options
      match input.validate tree host.now with
      | .error failure => .failed tree failure notices
      | .ok report =>
          match Store.save tree input.storePath report.store with
          | .error unsaved => .failed unsaved.tree unsaved.failure notices
          | .ok saved =>
              let checks := if options.verbose then report.checks.map TargetCheck.text else []
              let warnings :=
                if options.verbose then [] else report.warnings.map ("Warning: " ++ ·)
              { tree := saved
                output := checks ++ if options.quiet then [] else syncSummary report
                notices := notices ++ warnings
                ending := .ok 0 }

/-! ## inject -/

/-- The state of `inject` between two targets. -/
structure InjectProgress where
  tree : FileTree
  tagged : Nat := 0
  output : List String := []
  notices : List String := []
  /-- The failure at which it has broken off. -/
  failure : Option Failure := none

/-- The line about a file that cannot be read or written. -/
def faultNotice? (words : DetailWords) (path : Path) : InjectionFault → Option String
  | .denied _ => none
  | .unreadable cause => some s!"Warning: Cannot read {path}: {words.read cause}"
  | .unwritten fault => some s!"Warning: Cannot write {path}: {fault.message}"

/-- The progress when one more line has been said, or could not be. -/
def InjectProgress.say (host : Host) (progress : InjectProgress) (line : String) : InjectProgress :=
  match host.unsaid? progress.output line with
  | some fault => { progress with failure := some (.unwritten fault) }
  | none => { progress with output := progress.output ++ [line] }

def InjectProgress.step (host : Host) (verbose : Bool) (workspace : Workspace)
    (progress : InjectProgress) (pair : Link × Target) : InjectProgress :=
  let (link, target) := pair
  let path := workspace.resolve target.filePath
  let result := injectTag progress.tree path target link.sources
  match result.failure? with
  | some failure => { progress with tree := result.tree, failure := some failure }
  | none =>
      let faults := (result.fault.bind (faultNotice? host.words path)).toList
      if result.isTagged then
        let progress := { progress with
          tree := result.tree
          tagged := progress.tagged + 1
          notices := progress.notices ++ faults }
        if verbose then progress.say host s!"  + {link.matrixId} {target.describe}" else progress
      else
        { progress with
          tree := result.tree
          notices := progress.notices ++ faults ++
            [s!"Warning: Could not tag {target.describe} ({link.matrixId})"] }

/-- Puts the tags of targets into their files, one after the other, up to the first failure. -/
def InjectProgress.run (host : Host) (verbose : Bool) (workspace : Workspace) :
    InjectProgress → List (Link × Target) → InjectProgress
  | progress, [] => progress
  | progress, pair :: rest =>
      let next := progress.step host verbose workspace pair
      if next.failure.isSome then next else next.run host verbose workspace rest

/-- The targets of the links that the last validation left broken. -/
def brokenTargets (store : Store) : List (Link × Target) :=
  store.targets.filter (·.1.status = .broken)

/-- Puts the tags of all targets of broken links into their files. -/
def injectStore (host : Host) (options : CommonOptions) (workspace : Workspace)
    (tree : FileTree) (store : Store) : Outcome :=
  let progress := InjectProgress.run host options.verbose workspace { tree } (brokenTargets store)
  match progress.failure with
  | some failure => ⟨progress.tree, progress.output, progress.notices, .error failure⟩
  | none =>
      let summary := s!"Injection Complete. Tagged {progress.tagged} targets."
      { tree := progress.tree
        output := progress.output ++ if options.quiet then [] else [summary]
        notices := progress.notices
        ending := .ok 0 }

def inject (host : Host) (options : CommonOptions) (tree : FileTree) : Outcome :=
  match (do
    let workspace ← host.workspace options tree
    let path ← workspace.storePath
    tree.ask path
    return (workspace, path)) with
  | .error failure => .failed tree failure
  | .ok (workspace, path) =>
      if tree.has path then
        match Store.load tree path with
        | .error failure => .failed tree failure
        | .ok store => injectStore host options workspace tree store
      else .refused tree s!"No link store at {path}. Run 'hybrid-matrix sync' first."

/-! ## simulate -/

/-- The text of the patch that `simulate` is given, or the spelling of the file that is missing. -/
def readPatchText (host : Host) (tree : FileTree) (source : String) :
    Except Failure (Except String Text) :=
  if source = "-" then .ok (.ok host.input)
  else
    let path := Path.ofString source
    match tree.readText (host.around.directory.join path) with
    | .ok text => .ok (.ok text)
    | .error .missing | .error .isDirectory => .ok (.error path.toString)
    | .error cause => .error (.unreadable cause)

/-- What `simulate` says about a result. -/
def simulationLines (options : CommonOptions) (asJson : Bool) (result : SimulationResult) :
    List String :=
  if asJson then [String.ofList (result.toJson.render .ascii2)]
  else if options.quiet && result.isSafe then []
  else
    s!"Simulation: {result.verdict}" ::
      result.violations.map fun violation => s!"  ✗ {violation.matrixId}: {violation.message}"

def simulatePatch (host : Host) (options : CommonOptions) (tree : FileTree) (patch : String)
    (mode : Option PatchMode) (asJson : Bool) : Outcome :=
  match readPatchText host tree patch with
  | .error failure => .failed tree failure
  | .ok (.error path) => .refused tree s!"Patch file not found: {path}"
  | .ok (.ok text) =>
      match (do
        let workspace ← host.workspace options tree
        simulate host.modules workspace tree text none (mode.map (Json.string ∘ PatchMode.name))) with
      | .error failure => .failed tree failure
      | .ok result =>
          .said tree (simulationLines options asJson result) (if result.isSafe then 0 else 1)

/-! ## context, report and init -/

def showContext (host : Host) (options : CommonOptions) (tree : FileTree) (nodeId : String) :
    Outcome :=
  match host.workspace options tree with
  | .error failure => .failed tree failure
  | .ok workspace =>
      match gatherContext host.modules workspace tree nodeId with
      | .ok context => .said tree [String.ofList (context.toJson.render .plain)]
      | .error failure =>
          let detail := failure.messageWith host.words
          .refused tree s!"No context available for {nodeId}"
            [s!"Warning: Could not extract context for {nodeId}: {detail}"]

def showReport (host : Host) (options : CommonOptions) (tree : FileTree) (asJson : Bool) :
    Outcome :=
  match (do
    let workspace ← host.workspace options tree
    return HealthReport.ofStore (← Store.load tree (← workspace.storePath))) with
  | .error failure => .failed tree failure
  | .ok report =>
      .said tree [if asJson then String.ofList (report.toJson.render .ascii2) else report.text]

def writeStarter (host : Host) (options : CommonOptions) (tree : FileTree) (force : Bool) :
    Outcome :=
  let path := (options.root.getD host.around.directory).join (Path.ofString Config.fileName)
  let place := host.around.directory.join path
  if tree.has place && !force then
    .refused tree s!"{path} already exists (use --force to overwrite)"
  else if tree.entry? place = some .directory then .failed tree (.unreadable .isDirectory)
  else if tree.entry? place.parent ≠ some .directory then .failed tree (.unreadable .missing)
  else
    let writing := tree.write place (host.renderStarter Config.starter)
    match writing.fault with
    | some fault => .failed writing.tree (.unwritten fault)
    | none => .said writing.tree (if options.quiet then [] else [s!"Created {path}"])

/-! ## One invocation -/

def carryOut (host : Host) (tree : FileTree) (invocation : Invocation) : Outcome :=
  let options := invocation.options
  match invocation.command with
  | .sync => sync host options tree
  | .inject => inject host options tree
  | .simulate patch mode asJson => simulatePatch host options tree patch mode asJson
  | .context nodeId => showContext host options tree nodeId
  | .report asJson => showReport host options tree asJson
  | .init force => writeStarter host options tree force

/-- Says lines after some that have been said: what has been said then, and why no more. -/
def Host.sayAll (host : Host) : (said lines : List String) → List String × Option WriteFault
  | said, [] => (said, none)
  | said, line :: rest =>
      match host.unsaid? said line with
      | some fault => (said, some fault)
      | none => host.sayAll (said ++ [line]) rest

/-- Why not all lines of an outcome are said. -/
def Outcome.unsaid? (outcome : Outcome) (host : Host) : Option WriteFault :=
  (host.sayAll [] outcome.output).2

/-- The outcome with the lines that are said; it fails if these are not all. -/
def Outcome.speak (outcome : Outcome) (host : Host) : Outcome :=
  match outcome.unsaid? host with
  | none => outcome
  | some fault =>
      { outcome with
        output := (host.sayAll [] outcome.output).1
        ending := .error (.unwritten fault) }

/-- The outcome with a failure turned into a notice and an exit status. -/
def Outcome.settle (outcome : Outcome) (words : DetailWords) : Outcome :=
  match outcome.ending with
  | .ok _ => outcome
  | .error failure =>
      { outcome with
        notices := outcome.notices ++ ["Error: " ++ failure.messageWith words]
        ending := .ok 1 }

/-- What an invocation does; only under the verbose option does it end in a failure. -/
def run (host : Host) (tree : FileTree) (invocation : Invocation) : Outcome :=
  let outcome := (carryOut host tree invocation).speak host
  if invocation.options.verbose then outcome else outcome.settle host.words

/-- Lines as a stream holds them, each with its line feed. -/
def streamText (lines : List String) : String :=
  lines.foldl (fun text line => text ++ line ++ "\n") ""

def versionLine : String := "hybrid-matrix 0.1.0"

end Traceability.CommandLine
