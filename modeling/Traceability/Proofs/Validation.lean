/-
# Traceability.Proofs.Validation -- when a target passes

`Validator.Accepts` says what a node has to offer a target: the named construct,
and under the strict policy no fingerprint other than the expected one.  With a
snapshot, a target passes exactly when its file is there, a line of the file has
the tag, and the node of the file is accepted (`check_passed_iff`); without one
the node does not matter (`check_passed_iff_of_no_snapshot`).  A link is valid when
all of its targets pass (`valid_iff_of_run`).
-/
import Traceability.Validation
import Traceability.Proofs.Text.Occurrence

namespace Traceability.Validator

set_option autoImplicit false

/-- No warning means that the two fingerprints agree, if both are there. -/
theorem driftWarning?_eq_none_iff (target : Target) (construct : Construct) :
    driftWarning? target construct = none ↔
      ∀ expected found, target.expectedFingerprint = some expected → expected ≠ "" →
        construct.fingerprint = some found → found ≠ "" → expected = found := by
  have warning : driftWarning? target construct = none ↔
      ∀ expected ∈ target.expectedFingerprint.filter (· != ""),
        ∀ found ∈ construct.fingerprint.filter (· != ""), expected = found := by
    unfold driftWarning?
    cases target.expectedFingerprint.filter (· != "") with
    | none => simp [bind]
    | some expected =>
        cases construct.fingerprint.filter (· != "") with
        | none => simp [bind]
        | some found => simp [bind]
  rw [warning]
  simp only [Option.mem_def, Option.filter_eq_some_iff, bne_iff_ne, ne_eq, and_imp]
  constructor
  · intro agree expected found given nonempty taken known
    exact agree expected given nonempty found taken known
  · intro agree expected given nonempty found taken known
    exact agree expected found given nonempty taken known

theorem hasTag_iff (content : Text) (tag : String) :
    hasTag content tag = true ↔ ∃ line ∈ content.lines, tag.toList <:+: line := by
  simp only [hasTag, List.any_eq_true, Text.occursIn_iff]

/-- What a node has to offer a target. -/
def Accepts (validator : Validator) (node : Node) (target : Target) : Prop :=
  ∀ name, target.construct? = some name → ∃ construct, node.ownConstruct? name = some construct ∧
    (validator.strict = true → driftWarning? target construct = none)

theorem checkConstruct_eq_none_iff (validator : Validator) (snapshot : Snapshot)
    (target : Target) :
    (validator.checkConstruct snapshot target).1 = none ↔
      ∃ node, validator.workspace.fileNode? snapshot target.filePath = some node ∧
        validator.Accepts node target := by
  unfold checkConstruct Accepts
  cases validator.workspace.fileNode? snapshot target.filePath with
  | none => simp
  | some node =>
      cases target.construct? with
      | none => simp
      | some name =>
          cases own : node.ownConstruct? name with
          | none => simp [own]
          | some construct =>
              cases warned : driftWarning? target construct with
              | none => simp [own, warned]
              | some warning => simp [own, warned]

/-- **When a target passes**, if there is a snapshot. -/
theorem check_passed_iff {validator : Validator} {snapshot : Snapshot}
    (given : validator.snapshot = some snapshot) (matrixId : String) (target : Target) :
    (validator.check matrixId target).passed = true ↔
      ∃ octets, validator.tree.octets? (validator.workspace.resolve target.filePath) =
          some octets ∧
        (∃ line ∈ (FileTree.lossyTextOf octets).lines, target.expectedTag.toList <:+: line) ∧
        ∃ node, validator.workspace.fileNode? snapshot target.filePath = some node ∧
          validator.Accepts node target := by
  rw [TargetCheck.passed, check, Option.isNone_iff_eq_none]
  unfold findings
  cases validator.tree.octets? (validator.workspace.resolve target.filePath) with
  | none => simp
  | some octets =>
      simp only [Option.some.injEq, exists_eq_left', ← hasTag_iff]
      by_cases tagged : hasTag (FileTree.lossyTextOf octets) target.expectedTag = true
      · simp only [tagged, if_true, given, true_and]
        exact checkConstruct_eq_none_iff validator snapshot target
      · simp [tagged]

/-- When a target passes, if there is no snapshot. -/
theorem check_passed_iff_of_no_snapshot {validator : Validator} (none_given : validator.snapshot = none)
    (matrixId : String) (target : Target) :
    (validator.check matrixId target).passed = true ↔
      ∃ octets, validator.tree.octets? (validator.workspace.resolve target.filePath) =
          some octets ∧
        ∃ line ∈ (FileTree.lossyTextOf octets).lines, target.expectedTag.toList <:+: line := by
  rw [TargetCheck.passed, check, Option.isNone_iff_eq_none]
  unfold findings
  cases validator.tree.octets? (validator.workspace.resolve target.filePath) with
  | none => simp
  | some octets =>
      simp only [Option.some.injEq, exists_eq_left', ← hasTag_iff]
      by_cases tagged : hasTag (FileTree.lossyTextOf octets) target.expectedTag = true
      · simp [tagged, none_given]
      · simp [tagged]

/-- **When a link is valid** after a validation: all of its targets pass. -/
theorem valid_iff_of_run {validator : Validator} {store : Store} {now : ZonedTime}
    {report : ValidationReport} (ran : validator.run store now = .ok report) {n : Nat} {link : Link}
    (there : store.links[n]? = some link) :
    (report.store.links[n]?).map (·.status) = some .valid ↔
      ∀ target ∈ link.targets, (validator.check link.matrixId target).passed = true := by
  unfold run at ran
  split at ran
  · cases ran
  · cases ran
    simp only [List.getElem?_map, there, Option.map_some, refresh, checkLink, List.all_map,
      Option.some.injEq, ite_eq_left_iff, reduceCtorEq, imp_false, Classical.not_not,
      List.all_eq_true, Function.comp_apply]

end Traceability.Validator
