/-
# Traceability.Validation -- do the links still hold?

Validation looks at every target of every link: the file must exist, some line
of it must contain the expected tag, and, when there is a snapshot, the file
must have a node there that declares the named construct.  The first check that
fails decides.  A changed fingerprint is a warning, or a failure under the
strict policy.

A link is valid when all of its targets pass.  The validated store differs from
the given one in the statuses and the times of its links alone.
-/
import Traceability.Workspace
import Traceability.Timestamp

namespace Traceability

set_option autoImplicit false

/-- Why a target does not pass. -/
inductive TargetFailure where
  | fileMissing
  | tagMissing
  | nodeMissing
  | constructMissing
  | fingerprintDrift
deriving DecidableEq, Repr

/-- The word for a failure. -/
def TargetFailure.word : TargetFailure → String
  | .fileMissing => "file.missing"
  | .tagMissing => "tag.missing"
  | .nodeMissing => "node.missing"
  | .constructMissing => "construct.missing"
  | .fingerprintDrift => "fingerprint.drift"

/-- What was found about a target of a link. -/
structure TargetCheck where
  matrixId : String
  target : Target
  failure : Option TargetFailure
  warnings : List String

namespace TargetCheck

/-- Does the target pass? -/
def passed (check : TargetCheck) : Bool := check.failure.isNone

def text (check : TargetCheck) : String :=
  let head := match check.failure with
    | none => s!"✓ {check.matrixId} {check.target.describe}"
    | some failure => s!"✗ {check.matrixId} {check.target.describe} [{failure.word}]"
  "\n".intercalate (head :: check.warnings.map ("   ⚠ " ++ ·))

end TargetCheck

/-- What a validation looks at. -/
structure Validator where
  workspace : Workspace
  tree : FileTree
  /-- The latest snapshot; without one, constructs are not checked. -/
  snapshot : Option Snapshot
  /-- Does a changed fingerprint fail a target? -/
  strict : Bool

namespace Validator

/-- Does some line of the text contain the tag? -/
def hasTag (content : Text) (tag : String) : Bool :=
  content.lines.any (Text.occursIn tag.toList)

/-- The warning about a construct whose fingerprint differs from the one the target expects. -/
def driftWarning? (target : Target) (construct : Construct) : Option String := do
  let expected ← target.expectedFingerprint.filter (· != "")
  let found ← construct.fingerprint.filter (· != "")
  if expected == found then none
  else
    some (s!"Fingerprint mismatch for {construct.name}: expected " ++
      s!"{expected}, found {found} (logic changed)")

/-- The findings about a target within a snapshot: its failure and its warnings. -/
def checkConstruct (validator : Validator) (snapshot : Snapshot) (target : Target) :
    Option TargetFailure × List String :=
  match validator.workspace.fileNode? snapshot target.filePath with
  | none => (some .nodeMissing, [])
  | some node =>
      match target.construct? with
      | none => (none, [])
      | some name =>
          match node.ownConstruct? name with
          | none => (some .constructMissing, [])
          | some construct =>
              match driftWarning? target construct with
              | none => (none, [])
              | some warning =>
                  (if validator.strict then some .fingerprintDrift else none, [warning])

def findings (validator : Validator) (target : Target) : Option TargetFailure × List String :=
  match validator.tree.octets? (validator.workspace.resolve target.filePath) with
  | none => (some .fileMissing, [])
  | some octets =>
      if hasTag (FileTree.lossyTextOf octets) target.expectedTag then
        match validator.snapshot with
        | none => (none, [])
        | some snapshot => validator.checkConstruct snapshot target
      else (some .tagMissing, [])

/-- The check of a target of the link with an identifier. -/
def check (validator : Validator) (matrixId : String) (target : Target) : TargetCheck :=
  let (failure, warnings) := validator.findings target
  ⟨matrixId, target, failure, warnings⟩

def checkLink (validator : Validator) (link : Link) : List TargetCheck :=
  link.targets.map (validator.check link.matrixId)

def refresh (validator : Validator) (timestamp : String) (link : Link) : Link :=
  { link with
    status := if (validator.checkLink link).all TargetCheck.passed then .valid else .broken
    lastVerified := some timestamp }

end Validator

/-- A validated store and what was found. -/
structure ValidationReport where
  store : Store
  checks : List TargetCheck

namespace ValidationReport

/-- The checks of targets that do not pass. -/
def failures (report : ValidationReport) : List TargetCheck := report.checks.filter (!·.passed)

def warnings (report : ValidationReport) : List String := report.checks.flatMap (·.warnings)

end ValidationReport

def Validator.run (validator : Validator) (store : Store) (now : ZonedTime) :
    Except Failure ValidationReport :=
  match now.utcText? with
  | none => .error .timeOutOfRange
  | some timestamp =>
      .ok ⟨{ store with links := store.links.map (validator.refresh timestamp) },
        store.links.flatMap validator.checkLink⟩

end Traceability
