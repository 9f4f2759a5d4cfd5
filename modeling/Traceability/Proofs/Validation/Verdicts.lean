/-
# Traceability.Proofs.Validation.Verdicts -- what a validation changes of a store

A validation writes the verdicts of the links, their statuses and times, and
nothing else (`withoutVerdicts_of_run`).  No check looks at a verdict, so a
validation of the store that has been validated gives the same report
(`run_again`), and so does any validator that finds the same about the targets
(`run_congr`).
-/
import Traceability.Proofs.Store.RoundTrip
import Traceability.Validation

namespace Traceability

set_option autoImplicit false

/-! ## Verdicts -/

/-- The link without what a validation says of it. -/
def Link.withoutVerdict (link : Link) : Link :=
  { link with status := .broken, lastVerified := none }

/-- The store without what a validation says of its links. -/
def Store.withoutVerdicts (store : Store) : Store :=
  { store with links := store.links.map Link.withoutVerdict }

/-- Stores that differ in their verdicts alone have the same targets. -/
theorem Store.exists_link_of_withoutVerdicts {store other : Store}
    (same : other.withoutVerdicts = store.withoutVerdicts) {link : Link}
    (member : link ∈ other.links) : ∃ old ∈ store.links, old.targets = link.targets := by
  have links : other.links.map Link.withoutVerdict = store.links.map Link.withoutVerdict :=
    congrArg Store.links same
  have among : link.withoutVerdict ∈ store.links.map Link.withoutVerdict := by
    rw [← links]
    exact List.mem_map_of_mem member
  obtain ⟨old, there, equal⟩ := List.mem_map.1 among
  have targets : old.withoutVerdict.targets = link.withoutVerdict.targets := by rw [equal]
  exact ⟨old, there, targets⟩

namespace Validator

variable {validator : Validator} {store : Store} {now : ZonedTime} {report : ValidationReport}

theorem withoutVerdict_refresh (validator : Validator) (timestamp : String) (link : Link) :
    (validator.refresh timestamp link).withoutVerdict = link.withoutVerdict :=
  rfl

/-- A link that has been validated is left as it is. -/
theorem refresh_again (validator : Validator) (timestamp : String) (link : Link) :
    validator.refresh timestamp (validator.refresh timestamp link) =
      validator.refresh timestamp link :=
  rfl

theorem checkLink_refresh (validator : Validator) (timestamp : String) (link : Link) :
    validator.checkLink (validator.refresh timestamp link) = validator.checkLink link :=
  rfl

/-! ## Runs -/

/-- A validation succeeds when the time can be written, and then says this. -/
theorem exists_timestamp_of_run (ran : validator.run store now = .ok report) :
    ∃ timestamp, now.utcText? = some timestamp ∧
      report = ⟨{ store with links := store.links.map (validator.refresh timestamp) },
        store.links.flatMap validator.checkLink⟩ := by
  unfold run at ran
  split at ran
  · cases ran
  · rename_i timestamp written
    cases ran
    exact ⟨timestamp, written, rfl⟩

theorem withoutVerdicts_of_run (ran : validator.run store now = .ok report) :
    report.store.withoutVerdicts = store.withoutVerdicts := by
  obtain ⟨timestamp, -, rfl⟩ := exists_timestamp_of_run ran
  have links : (store.links.map (validator.refresh timestamp)).map Link.withoutVerdict =
      store.links.map Link.withoutVerdict := by
    rw [List.map_map]
    exact List.map_congr_left fun link _ => withoutVerdict_refresh validator timestamp link
  exact congrArg (fun links => { store with links }) links

theorem wellFormed_of_run (ran : validator.run store now = .ok report)
    (wellFormed : store.WellFormed) : report.store.WellFormed := by
  obtain ⟨timestamp, -, rfl⟩ := exists_timestamp_of_run ran
  refine ⟨fun link member => ?_, wellFormed.orphans, wellFormed.free⟩
  obtain ⟨old, there, rfl⟩ := List.mem_map.1 member
  have before := wellFormed.links old there
  exact ⟨before.hasSources, before.hasTargets, before.targets, before.free⟩

/-- **A validation of what has been validated says the same.** -/
theorem run_again (ran : validator.run store now = .ok report) :
    validator.run report.store now = .ok report := by
  obtain ⟨timestamp, written, rfl⟩ := exists_timestamp_of_run ran
  have links : (store.links.map (validator.refresh timestamp)).map (validator.refresh timestamp) =
      store.links.map (validator.refresh timestamp) := by
    rw [List.map_map]
    exact List.map_congr_left fun link _ => refresh_again validator timestamp link
  have checks : (store.links.map (validator.refresh timestamp)).flatMap validator.checkLink =
      store.links.flatMap validator.checkLink := by
    rw [List.flatMap_map]
    exact List.flatMap_congr fun link _ => checkLink_refresh validator timestamp link
  unfold run
  simp only [written, links, checks]

/-- Validators that find the same about every target say the same. -/
theorem run_congr {other : Validator}
    (same : ∀ link ∈ store.links, ∀ target ∈ link.targets,
      other.findings target = validator.findings target) :
    other.run store now = validator.run store now := by
  have checks : ∀ link ∈ store.links, other.checkLink link = validator.checkLink link := by
    intro link member
    refine List.map_congr_left fun target among => ?_
    rw [check, check, same link member target among]
  have refreshed : ∀ timestamp, store.links.map (other.refresh timestamp) =
      store.links.map (validator.refresh timestamp) := by
    intro timestamp
    refine List.map_congr_left fun link member => ?_
    rw [refresh, refresh, checks link member]
  have all : store.links.flatMap other.checkLink = store.links.flatMap validator.checkLink :=
    List.flatMap_congr checks
  unfold run
  simp only [refreshed, all]

/-- What is found about a target depends on its own file alone. -/
theorem findings_congr {next : FileTree} {target : Target}
    (same : next.octets? (validator.workspace.resolve target.filePath) =
      validator.tree.octets? (validator.workspace.resolve target.filePath)) :
    { validator with tree := next }.findings target = validator.findings target := by
  unfold findings
  simp only [same]
  rfl

end Validator

end Traceability
