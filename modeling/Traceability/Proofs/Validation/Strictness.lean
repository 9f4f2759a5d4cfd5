/-
# Traceability.Proofs.Validation.Strictness -- what a stricter validation rejects

A validation is made stricter in two ways: by a snapshot, and by a policy under
which a changed fingerprint fails its target.  Each way can only reject: what
passes the stricter validation passes the other one as well.

The two policies find the same about a target but for one case (`DriftApart`):
where there is a warning, the target passes under the one policy and fails under
the other.  A warning never stands beside another failure, since fingerprints
are looked at only where everything else is right.

All of this is said of three validations of one store at one time
(`Validator.run_graded`).
-/
import Mathlib.Data.List.Forall2
import Traceability.Proofs.Validation
import Traceability.Proofs.Validation.Verdicts

namespace Traceability

set_option autoImplicit false

/-! ## Three validations -/

namespace Validator

/-- The validation under which a changed fingerprint fails its target. -/
def strictly (validator : Validator) : Validator := { validator with strict := true }

/-- The validation under which a changed fingerprint is a warning. -/
def leniently (validator : Validator) : Validator := { validator with strict := false }

/-- The validation that does not look at constructs. -/
def withoutSnapshot (validator : Validator) : Validator := { validator with snapshot := none }

end Validator

/-- The link without its status. -/
def Link.withoutStatus (link : Link) : Link := { link with status := .broken }

/-- The store without the statuses of its links. -/
def Store.withoutStatuses (store : Store) : Store :=
  { store with links := store.links.map Link.withoutStatus }

/-- Is the link at this place of the validated store valid? -/
def ValidationReport.IsValid (report : ValidationReport) (n : Nat) : Prop :=
  (report.store.links[n]?).map (·.status) = some .valid

/-- Two checks of one target with the same warnings.  Where there is a warning, the target passes the
one and fails the other for the drift; where there is none, the failures are the same. -/
structure TargetCheck.DriftApart (lenient strict : TargetCheck) : Prop where
  matrixId : strict.matrixId = lenient.matrixId
  target : strict.target = lenient.target
  warnings : strict.warnings = lenient.warnings
  failure_ne_iff : strict.failure ≠ lenient.failure ↔ lenient.warnings ≠ []
  drift : strict.failure ≠ lenient.failure →
    strict.failure = some .fingerprintDrift ∧ lenient.failure = none

/-- How three validations of one store are graded: under the strict policy, under the lenient one and
without a snapshot. -/
structure ValidationReport.Graded (strict lenient bare : ValidationReport) : Prop where
  valid_of_strict : ∀ n, strict.IsValid n → lenient.IsValid n
  valid_of_lenient : ∀ n, lenient.IsValid n → bare.IsValid n
  checks : List.Forall₂ TargetCheck.DriftApart lenient.checks strict.checks
  warnings : strict.warnings = lenient.warnings
  strict_store : strict.store.withoutStatuses = lenient.store.withoutStatuses
  bare_store : bare.store.withoutStatuses = lenient.store.withoutStatuses

/-! ## One target -/

/-- The findings of the two policies, in the two cases: without a warning, and with one. -/
inductive PolicyFindings :
    Option TargetFailure × List String → Option TargetFailure × List String → Prop where
  | agree (failure : Option TargetFailure) : PolicyFindings (failure, []) (failure, [])
  | drift (warning : String) : PolicyFindings (none, [warning]) (some .fingerprintDrift, [warning])

namespace Validator

variable {validator other : Validator} {store : Store} {now : ZonedTime}
  {report others : ValidationReport}

theorem policyFindings_checkConstruct (validator : Validator) (snapshot : Snapshot)
    (target : Target) :
    PolicyFindings (validator.leniently.checkConstruct snapshot target)
      (validator.strictly.checkConstruct snapshot target) := by
  unfold checkConstruct
  dsimp only [leniently, strictly]
  cases validator.workspace.fileNode? snapshot target.filePath with
  | none => exact .agree _
  | some node =>
      cases target.construct? with
      | none => exact .agree _
      | some name =>
          dsimp only
          cases node.ownConstruct? name with
          | none => exact .agree _
          | some construct =>
              dsimp only
              cases driftWarning? target construct with
              | none => exact .agree _
              | some warning => exact .drift warning

theorem policyFindings_findings (validator : Validator) (target : Target) :
    PolicyFindings (validator.leniently.findings target) (validator.strictly.findings target) := by
  unfold findings
  cases located : validator.tree.octets? (validator.workspace.resolve target.filePath) with
  | none =>
      simp only [leniently, strictly, located]
      exact .agree _
  | some octets =>
      by_cases tagged : hasTag (FileTree.lossyTextOf octets) target.expectedTag = true
      · cases given : validator.snapshot with
        | none =>
            simp only [leniently, strictly, located, tagged, given]
            exact .agree _
        | some snapshot =>
            simp only [leniently, strictly, located, tagged, given, if_true]
            exact policyFindings_checkConstruct validator snapshot target
      · simp only [leniently, strictly, located, tagged]
        exact .agree _

theorem driftApart_check (validator : Validator) (matrixId : String) (target : Target) :
    TargetCheck.DriftApart (validator.leniently.check matrixId target)
      (validator.strictly.check matrixId target) := by
  have found := policyFindings_findings validator target
  unfold check
  generalize validator.leniently.findings target = lenient at found ⊢
  generalize validator.strictly.findings target = strict at found ⊢
  cases found with
  | agree failure => exact ⟨rfl, rfl, rfl, by simp, fun differ => absurd rfl differ⟩
  | drift warning => exact ⟨rfl, rfl, rfl, by simp, fun _ => ⟨rfl, rfl⟩⟩

/-- What passes under the strict policy passes under the lenient one. -/
theorem leniently_passed (validator : Validator) {matrixId : String} {target : Target}
    (passes : (validator.strictly.check matrixId target).passed = true) :
    (validator.leniently.check matrixId target).passed = true := by
  have apart := driftApart_check validator matrixId target
  have fine : (validator.strictly.check matrixId target).failure = none :=
    Option.isNone_iff_eq_none.1 passes
  apply Option.isNone_iff_eq_none.2
  by_cases differ : (validator.strictly.check matrixId target).failure ≠
      (validator.leniently.check matrixId target).failure
  · exact (apart.drift differ).2
  · rw [← not_not.1 differ]
    exact fine

/-- What passes passes without the snapshot. -/
theorem withoutSnapshot_passed (validator : Validator) {matrixId : String} {target : Target}
    (passes : (validator.check matrixId target).passed = true) :
    (validator.withoutSnapshot.check matrixId target).passed = true := by
  rw [check_passed_iff_of_no_snapshot rfl]
  cases given : validator.snapshot with
  | none => exact (check_passed_iff_of_no_snapshot given matrixId target).1 passes
  | some snapshot =>
      obtain ⟨octets, located, tagged, -⟩ := (check_passed_iff given matrixId target).1 passes
      exact ⟨octets, located, tagged⟩

/-! ## Runs -/

/-- If more targets pass, more links are valid. -/
theorem isValid_mono (ran : validator.run store now = .ok report)
    (ranOther : other.run store now = .ok others)
    (more : ∀ matrixId target, (validator.check matrixId target).passed = true →
      (other.check matrixId target).passed = true) {n : Nat} (valid : report.IsValid n) :
    others.IsValid n := by
  have there : ∃ link, store.links[n]? = some link := by
    obtain ⟨timestamp, -, rfl⟩ := exists_timestamp_of_run ran
    unfold ValidationReport.IsValid at valid
    rw [Option.map_eq_some_iff] at valid
    obtain ⟨refreshed, found, -⟩ := valid
    rw [List.getElem?_map, Option.map_eq_some_iff] at found
    obtain ⟨link, there, -⟩ := found
    exact ⟨link, there⟩
  obtain ⟨link, there⟩ := there
  apply (valid_iff_of_run ranOther there).2
  intro target member
  exact more _ _ ((valid_iff_of_run ran there).1 valid target member)

/-- Validations of one store at one time write nothing different but statuses. -/
theorem withoutStatuses_of_runs (ran : validator.run store now = .ok report)
    (ranOther : other.run store now = .ok others) :
    report.store.withoutStatuses = others.store.withoutStatuses := by
  obtain ⟨timestamp, written, rfl⟩ := exists_timestamp_of_run ran
  obtain ⟨again, same, rfl⟩ := exists_timestamp_of_run ranOther
  rw [written] at same
  cases same
  have links : (store.links.map (validator.refresh timestamp)).map Link.withoutStatus =
      (store.links.map (other.refresh timestamp)).map Link.withoutStatus := by
    rw [List.map_map, List.map_map]
    rfl
  exact congrArg (fun links => { store with links }) links

/-- The checks of the two policies, one beside the other. -/
theorem driftApart_checks (validator : Validator) (links : List Link) :
    List.Forall₂ TargetCheck.DriftApart (links.flatMap validator.leniently.checkLink)
      (links.flatMap validator.strictly.checkLink) := by
  apply List.rel_flatMap (R := Eq) (List.forall₂_refl links)
  rintro link _ rfl
  apply List.rel_map (R := Eq) _ (List.forall₂_refl link.targets)
  rintro target _ rfl
  exact driftApart_check validator link.matrixId target

theorem flatMap_warnings_eq {lenient strict : List TargetCheck}
    (apart : List.Forall₂ TargetCheck.DriftApart lenient strict) :
    strict.flatMap (·.warnings) = lenient.flatMap (·.warnings) := by
  induction apart with
  | nil => rfl
  | cons here _ ih => rw [List.flatMap_cons, List.flatMap_cons, here.warnings, ih]

/-- **A stricter validation only rejects**: of one store at one time, whatever the workspace and the
snapshot, the three validations are graded, unless the time cannot be written. -/
theorem run_graded (validator : Validator) (store : Store) (now : ZonedTime) :
    (∃ strict lenient bare, validator.strictly.run store now = .ok strict ∧
      validator.leniently.run store now = .ok lenient ∧
      validator.withoutSnapshot.run store now = .ok bare ∧ strict.Graded lenient bare) ∨
    now.utcText? = none ∧ ∀ any : Validator, any.run store now = .error .timeOutOfRange := by
  cases written : now.utcText? with
  | none =>
      refine Or.inr ⟨rfl, fun any => ?_⟩
      unfold run
      rw [written]
  | some timestamp =>
      have runs : ∀ any : Validator, ∃ report, any.run store now = .ok report ∧
          report.checks = store.links.flatMap any.checkLink := by
        intro any
        unfold run
        rw [written]
        exact ⟨_, rfl, rfl⟩
      obtain ⟨strict, ranStrict, strictChecks⟩ := runs validator.strictly
      obtain ⟨lenient, ranLenient, lenientChecks⟩ := runs validator.leniently
      obtain ⟨bare, ranBare, -⟩ := runs validator.withoutSnapshot
      have checks : List.Forall₂ TargetCheck.DriftApart lenient.checks strict.checks := by
        rw [strictChecks, lenientChecks]
        exact driftApart_checks validator store.links
      refine Or.inl ⟨strict, lenient, bare, ranStrict, ranLenient, ranBare, ?_, ?_, checks,
        flatMap_warnings_eq checks, withoutStatuses_of_runs ranStrict ranLenient,
        withoutStatuses_of_runs ranBare ranLenient⟩
      · intro n valid
        exact isValid_mono ranStrict ranLenient (fun _ _ => leniently_passed validator) valid
      · intro n valid
        apply isValid_mono ranLenient ranBare _ valid
        intro matrixId target passes
        exact withoutSnapshot_passed validator.leniently passes

end Validator

end Traceability
