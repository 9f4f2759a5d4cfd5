/-
# Traceability.Proofs.CommandLine.Sync -- running `sync` again

`sync` reads the store and the snapshot, validates every link, and saves the store;
when it cannot be saved, the command fails (`sync_of_saved`, `sync_of_unsaved`).  What
it reads the second time is what it read the first time, but for the store, and
that is the one it saved; so the second run saves the same document and says the same
(`sync_again`).

This needs the store to lie apart from what the command reads besides it
(`SyncInput.StandsApart`).  A store in the place of the configuration is read as
one, and a directory that is made for the store may be where the snapshot is looked
for: then the second run fails (`sync_fails_again`).
-/
import Traceability.CommandLine.Commands
import Traceability.Proofs.Store.Saved
import Traceability.Proofs.Validation.Verdicts
import Traceability.Proofs.Workspace
import Traceability.Toml.Reader
import Traceability.Toml.Writer

namespace Traceability

set_option autoImplicit false

namespace FileTree

variable {tree next : FileTree}

theorem look_congr {path : Path} (disk : next.disk = tree.disk)
    (same : next.octets? path = tree.octets? path) : next.look path = tree.look path := by
  rw [look, look, ask, ask, disk, same]

theorem lookAll_eq_ok_iff {paths : List Path} :
    tree.lookAll paths = .ok () ↔ ∀ path ∈ paths, tree.look path = .ok () := by
  induction paths with
  | nil => simp [lookAll]
  | cons path rest ih =>
      rw [lookAll, bind_eq_ok_iff, List.forall_mem_cons, ← ih]
      exact ⟨fun ⟨_, here, later⟩ => ⟨here, later⟩, fun ⟨here, later⟩ => ⟨(), here, later⟩⟩

end FileTree

/-- What is loaded as a snapshot depends on the disk and on what lies at the path. -/
theorem Snapshot.load?_congr {tree next : FileTree} {path : Path} (disk : next.disk = tree.disk)
    (same : next.entry? path = tree.entry? path) :
    Snapshot.load? next path = Snapshot.load? tree path := by
  unfold Snapshot.load? FileTree.ask FileTree.has FileTree.readDocument FileTree.readText
  rw [disk, same]

/-- A directory is not loaded. -/
theorem Snapshot.entry?_ne_directory_of_load? {tree : FileTree} {path : Path}
    {snapshot : Option Snapshot} (taken : Snapshot.load? tree path = .ok snapshot) :
    tree.entry? path ≠ some .directory := by
  intro entry
  obtain ⟨_, -, taken⟩ := bind_eq_ok_iff.1 taken
  simp [FileTree.has, entry, FileTree.readDocument, FileTree.readText, bind, Except.bind, throw,
    throwThe, MonadExceptOf.throw] at taken

theorem Store.mem_targets {store : Store} {pair : Link × Target} :
    pair ∈ store.targets ↔ pair.1 ∈ store.links ∧ pair.2 ∈ pair.1.targets := by
  obtain ⟨link, target⟩ := pair
  simp [Store.targets]

namespace CommandLine

variable {host : Host} {options : CommonOptions} {tree next : FileTree} {input : SyncInput}
  {report : ValidationReport}

/-! ## What is read -/

theorem SyncInput.read_eq_ok_iff : SyncInput.read host options tree = .ok input ↔
    host.workspace options tree = .ok input.workspace ∧
      input.workspace.storePath = .ok input.storePath ∧
      Store.load tree input.storePath = .ok input.store ∧
      input.workspace.snapshotPath = .ok input.snapshotPath ∧
      Snapshot.load? tree input.snapshotPath = .ok input.snapshot := by
  simp only [SyncInput.read, bind_eq_ok_iff]
  constructor
  · rintro ⟨workspace, found, storePath, located, store, loaded, snapshotPath, placed, snapshot,
      taken, made⟩
    cases made
    exact ⟨found, located, loaded, placed, taken⟩
  · rintro ⟨found, located, loaded, placed, taken⟩
    exact ⟨_, found, _, located, _, loaded, _, placed, _, taken, rfl⟩

theorem SyncInput.validate_eq_ok_iff {now : ZonedTime} : input.validate tree now = .ok report ↔
    ∃ strict, input.workspace.setting "validation" "strict_drift" = .ok strict ∧
      Validator.run ⟨input.workspace, tree, input.snapshot, strict.isGiven⟩ input.store now =
        .ok report ∧
      tree.lookAll input.targetPaths = .ok () := by
  simp only [SyncInput.validate, bind_eq_ok_iff]
  constructor
  · rintro ⟨strict, setting, found, ran, _, looked, made⟩
    cases made
    exact ⟨strict, setting, ran, looked⟩
  · rintro ⟨strict, setting, ran, looked⟩
    exact ⟨strict, setting, report, ran, (), looked, rfl⟩

theorem SyncInput.mem_targetPaths {path : Path} : path ∈ input.targetPaths ↔
    ∃ link ∈ input.store.links, ∃ target ∈ link.targets,
      input.workspace.resolve target.filePath = path := by
  simp only [SyncInput.targetPaths, List.mem_map, Prod.exists, Store.mem_targets, and_assoc,
    exists_and_left]

/-- Links that differ in their verdicts alone have their targets at the same paths. -/
theorem SyncInput.mem_targetPaths_of_withoutVerdicts {store : Store}
    (verdicts : store.withoutVerdicts = input.store.withoutVerdicts) {path : Path}
    (member : path ∈ SyncInput.targetPaths { input with store }) : path ∈ input.targetPaths := by
  obtain ⟨link, there, target, among, here⟩ := SyncInput.mem_targetPaths.1 member
  obtain ⟨old, thereOld, targets⟩ := Store.exists_link_of_withoutVerdicts verdicts there
  exact SyncInput.mem_targetPaths.2 ⟨old, thereOld, target, targets ▸ among, here⟩

/-! ## What is done -/

/-- A validation that can be saved is saved. -/
theorem sync_of_saved (read : SyncInput.read host options tree = .ok input)
    (validated : input.validate tree host.now = .ok report)
    (saved : Store.save tree input.storePath report.store = .ok next) :
    (sync host options tree).tree = next ∧ (sync host options tree).ending = .ok 0 := by
  simp only [sync, read, validated, saved, and_self]

/-- Otherwise the command fails, and leaves what saving has left. -/
theorem sync_of_unsaved (read : SyncInput.read host options tree = .ok input)
    (validated : input.validate tree host.now = .ok report) {unsaved : Unsaved}
    (fails : Store.save tree input.storePath report.store = .error unsaved) :
    sync host options tree =
      .failed unsaved.tree unsaved.failure (input.missingSnapshot options) := by
  simp only [sync, read, validated, fails]

/-- Without a validation nothing is saved. -/
theorem sync_tree_of_error (read : SyncInput.read host options tree = .ok input) {failure : Failure}
    (failed : input.validate tree host.now = .error failure) :
    (sync host options tree).tree = tree := by
  simp only [sync, read, failed, Outcome.failed]

/-- The store lies apart from everything else that the command reads. -/
structure SyncInput.StandsApart (input : SyncInput) (host : Host) (options : CommonOptions)
    (tree : FileTree) : Prop where
  config : Config.IsApart tree host.around options.config input.workspace.root input.storePath
  snapshot : input.snapshotPath.place ≠ input.storePath.place
  targets : ∀ link ∈ input.store.links, ∀ target ∈ link.targets,
    (input.workspace.resolve target.filePath).place ≠ input.storePath.place
  /-- No directory that is made for the store makes the path of the snapshot lead somewhere. -/
  directories : (tree.makeDirectories input.storePath.parent).has input.snapshotPath =
    tree.has input.snapshotPath

instance : Decidable (input.StandsApart host options tree) :=
  decidable_of_iff
    (Config.IsApart tree host.around options.config input.workspace.root input.storePath ∧
      input.snapshotPath.place ≠ input.storePath.place ∧
      (∀ link ∈ input.store.links, ∀ target ∈ link.targets,
        (input.workspace.resolve target.filePath).place ≠ input.storePath.place) ∧
      (tree.makeDirectories input.storePath.parent).has input.snapshotPath =
        tree.has input.snapshotPath)
    ⟨fun ⟨config, snapshot, targets, directories⟩ => ⟨config, snapshot, targets, directories⟩,
      fun apart => ⟨apart.config, apart.snapshot, apart.targets, apart.directories⟩⟩

section

variable (absolute : host.around.directory.isAbsolute = true) (grounded : tree.IsGrounded)
  (read : SyncInput.read host options tree = .ok input)
  (validated : input.validate tree host.now = .ok report)
  (apart : input.StandsApart host options tree)
  (opens : tree.disk.hides input.storePath = none)
  (readsBack : report.store.ReadsBack tree.disk.halves)

include read apart in
/-- The snapshot is the same after a store has been saved. -/
theorem snapshot_of_save {store : Store}
    (saved : Store.save tree input.storePath store = .ok next) :
    Snapshot.load? next input.snapshotPath = .ok input.snapshot := by
  obtain ⟨-, -, -, -, taken⟩ := SyncInput.read_eq_ok_iff.1 read
  obtain ⟨admits, same⟩ := Store.eq_saveOctets_of_save saved
  have grows := FileTree.grows_saveOctets admits (Text.Utf8.encode store.text)
  rw [← same] at grows
  rw [← taken]
  refine Snapshot.load?_congr grows.disk ?_
  cases entry : tree.entry? input.snapshotPath with
  | none =>
      have still : next.has input.snapshotPath = false := by
        rw [same, FileTree.has_saveOctets admits _ apart.snapshot, apart.directories,
          FileTree.has, entry]
        rfl
      exact Option.isSome_eq_false_iff.1 still |> Option.isNone_iff_eq_none.1
  | some found =>
      cases found with
      | directory => exact absurd entry (Snapshot.entry?_ne_directory_of_load? taken)
      | file octets =>
          have before : tree.octets? input.snapshotPath = some octets := by
            rw [FileTree.octets?, entry]
          exact FileTree.entry?_of_octets (grows.octets? before apart.snapshot)

include read apart in
/-- The files of the targets are the same after a store has been saved. -/
theorem octets?_of_save {store : Store} (saved : Store.save tree input.storePath store = .ok next)
    {path : Path} (isTarget : path ∈ input.targetPaths) : next.octets? path = tree.octets? path := by
  obtain ⟨link, member, target, among, rfl⟩ := SyncInput.mem_targetPaths.1 isTarget
  obtain ⟨-, -, loaded, -, -⟩ := SyncInput.read_eq_ok_iff.1 read
  obtain ⟨admits, rfl⟩ := Store.eq_saveOctets_of_save saved
  rcases Store.eq_empty_or_octets_of_load loaded with ⟨-, empty⟩ | ⟨octets, file, -⟩
  · rw [empty] at member
    cases member
  · -- The store is there, so no directory is made, and every path leads where it led.
    have grows := FileTree.grows_saveOctets admits (Text.Utf8.encode store.text)
    rw [FileTree.octets?_eq, FileTree.octets?_eq, FileTree.follow_saveOctets_of_octets file]
    cases led : tree.follow [] (input.workspace.resolve target.filePath).names with
    | none => rfl
    | some place =>
        have distinct : place ≠ input.storePath.place := by
          rw [← FileTree.follow_eq_place led]
          exact apart.targets link member target among
        rw [Option.bind_some, Option.bind_some, grows.others place distinct]

include absolute grounded read validated apart opens readsBack

/-- Afterwards the command reads what it read, with the store that was saved. -/
theorem read_of_save (saved : Store.save tree input.storePath report.store = .ok next) :
    SyncInput.read host options next = .ok { input with store := report.store } := by
  obtain ⟨found, located, loaded, placed, taken⟩ := SyncInput.read_eq_ok_iff.1 read
  obtain ⟨strict, -, ran, -⟩ := SyncInput.validate_eq_ok_iff.1 validated
  have wellFormed := Validator.wellFormed_of_run ran (Store.wellFormed_of_load loaded)
  have shown : tree.disk.Shows input.storePath := ⟨Store.answers_of_load loaded, opens⟩
  obtain ⟨admits, same⟩ := Store.eq_saveOctets_of_save saved
  have stays := Workspace.ofDirectory_of_grows_apart
    (FileTree.grows_saveOctets admits (Text.Utf8.encode report.store.text)) grounded absolute
    found apart.config
  rw [← same] at stays
  have takenAgain := snapshot_of_save read apart saved
  exact SyncInput.read_eq_ok_iff.2 ⟨stays.1, located,
    Store.load_save shown saved wellFormed readsBack, placed, takenAgain⟩

omit absolute grounded opens readsBack in
/-- And the validation says the same. -/
theorem validate_of_save (saved : Store.save tree input.storePath report.store = .ok next) :
    SyncInput.validate { input with store := report.store } next host.now = .ok report := by
  obtain ⟨strict, setting, ran, looked⟩ := SyncInput.validate_eq_ok_iff.1 validated
  obtain ⟨admits, same⟩ := Store.eq_saveOctets_of_save saved
  have verdicts := Validator.withoutVerdicts_of_run ran
  have files : ∀ path ∈ SyncInput.targetPaths { input with store := report.store },
      path ∈ input.targetPaths ∧ next.octets? path = tree.octets? path := by
    intro path member
    have before := SyncInput.mem_targetPaths_of_withoutVerdicts verdicts member
    exact ⟨before, octets?_of_save read apart saved before⟩
  refine SyncInput.validate_eq_ok_iff.2 ⟨strict, setting, ?_, ?_⟩
  · rw [← Validator.run_again ran]
    refine Validator.run_congr fun link member target among => ?_
    have isTarget := SyncInput.mem_targetPaths.2 ⟨link, member, target, among, rfl⟩
    exact @Validator.findings_congr ⟨input.workspace, tree, input.snapshot, strict.isGiven⟩ _ _
      (files _ isTarget).2
  · rw [FileTree.lookAll_eq_ok_iff] at looked ⊢
    have disk : next.disk = tree.disk := same ▸ (FileTree.grows_saveOctets admits _).disk
    intro path member
    obtain ⟨before, file⟩ := files path member
    rw [FileTree.look_congr disk file]
    exact looked path before

end

/-- When a store that has been saved is saved again, nothing changes. -/
theorem save_again {last : FileTree} {path : Path} {store : Store}
    (saved : Store.save tree path store = .ok next) (again : Store.save next path store = .ok last) :
    last = next := by
  obtain ⟨admits, rfl⟩ := Store.eq_saveOctets_of_save saved
  obtain ⟨-, rfl⟩ := Store.eq_saveOctets_of_save again
  exact FileTree.saveOctets_again admits _

/-- **A second `sync` repeats the first.**  Where the store can be saved both times and read, and lies
apart from what else is read, running the command again with the same clock leaves the same files,
says the same and ends in the same way.  If the first run saved a validated store, then the file
holds its document, and the second run reads that store and comes to the same report. -/
theorem sync_again (absolute : host.around.directory.isAbsolute = true) (grounded : tree.IsGrounded)
    (read : SyncInput.read host options tree = .ok input)
    (apart : input.StandsApart host options tree)
    (saves : ∀ report, input.validate tree host.now = .ok report →
      ∃ next last, Store.save tree input.storePath report.store = .ok next ∧
        Store.save next input.storePath report.store = .ok last)
    (opens : tree.disk.hides input.storePath = none)
    (readsBack : ∀ report, input.validate tree host.now = .ok report →
      report.store.ReadsBack tree.disk.halves) :
    sync host options (sync host options tree).tree = sync host options tree ∧
      ∀ report, input.validate tree host.now = .ok report →
        (sync host options tree).ending = .ok 0 ∧
          (sync host options tree).tree.octets? input.storePath =
            some (Text.Utf8.encode report.store.text) ∧
          ∃ again, SyncInput.read host options (sync host options tree).tree = .ok again ∧
            again.store = report.store ∧
            again.validate (sync host options tree).tree host.now = .ok report := by
  cases ran : input.validate tree host.now with
  | error failure =>
      rw [sync_tree_of_error read ran]
      exact ⟨rfl, nofun⟩
  | ok report =>
      obtain ⟨next, last, saved, savedAgain⟩ := saves report ran
      obtain ⟨left, ends⟩ := sync_of_saved read ran saved
      have readAgain :=
        read_of_save absolute grounded read ran apart opens (readsBack report ran) saved
      have ranAgain := validate_of_save read ran apart saved
      rw [left]
      refine ⟨?_, ?_⟩
      · rw [save_again saved savedAgain] at savedAgain
        have notices : SyncInput.missingSnapshot { input with store := report.store } options =
            input.missingSnapshot options := rfl
        rw [sync, sync, readAgain, read]
        simp only [ranAgain, ran, savedAgain, saved, notices]
      · rintro _ ⟨⟩
        obtain ⟨admits, same⟩ := Store.eq_saveOctets_of_save saved
        refine ⟨ends, ?_, _, readAgain, rfl, ranAgain⟩
        rw [same]
        exact FileTree.octets?_saveOctets admits _

/-! ## Two workspaces -/

/-- A host in the directory `/w`, with these environment variables and no parsers. -/
def hostWith (environment : List (String × String)) : Host :=
  ⟨⟨⟨.root, ["w"]⟩, environment, Toml.read?⟩, Toml.render, [],
    ⟨2024, 1, 2, 3, 4, 5, 678000, 0⟩, [], {}, fun _ _ => none⟩

/-- Where that host looks for the store. -/
def usualStorePath : Path := ⟨.root, ["w", ".hybrid", "hybrid-matrix.json"]⟩

/-- A file, and a store that links it. -/
def linkedTree (code : String) : FileTree :=
  { entries := [(["w"], .directory), (["w", "f.py"], .file (Text.Utf8.encode code.toList)),
      (["w", ".hybrid"], .directory), (usualStorePath.names, .file
        (Text.Utf8.encode (Store.linksText [Store.linkDocument "M" "f.py" "# R1"])))] }

/-- What the validation makes of that store when the file has the tag. -/
def linkedStore : Store :=
  ⟨"1.0", [⟨"M", .oneToOne, ["R1"], [⟨"f.py", .python, "# R1", none, none, []⟩], .valid,
    some "2024-01-02T03:04:05.678Z", []⟩], ⟨[], [], []⟩, []⟩

/-- A workspace in which that file has the tag. -/
def taggedTree : FileTree := linkedTree "# R1\nx = 1\n"

/-- A workspace without any files. -/
def bareTree : FileTree := { entries := [(["w"], .directory)] }

/-- The store of the first workspace is saved a second time as it was the first time, and so is the
empty one of the second. -/
theorem sync_again_tagged_and_bare :
    sync (hostWith []) {} (sync (hostWith []) {} taggedTree).tree =
        sync (hostWith []) {} taggedTree ∧
      (sync (hostWith []) {} taggedTree).tree.octets? usualStorePath =
        some (Text.Utf8.encode linkedStore.text) ∧
      sync (hostWith []) {} (sync (hostWith []) {} bareTree).tree =
        sync (hostWith []) {} bareTree := by
  have settled : ∀ tree ∈ [taggedTree, bareTree],
      (SyncInput.read (hostWith []) {} tree).toOption.any (fun (input : SyncInput) =>
        decide (input.StandsApart (hostWith []) {} tree ∧ tree.disk.hides input.storePath = none) &&
          (input.validate tree (hostWith []).now).toOption.all fun report =>
            ((Store.save tree input.storePath report.store).toOption.any fun next =>
                (Store.save next input.storePath report.store).toOption.any fun _ => true) &&
              decide (report.store.ReadsBack tree.disk.halves)) = true := by decide +kernel
  have again : ∀ tree ∈ [taggedTree, bareTree], tree.IsGrounded →
      sync (hostWith []) {} (sync (hostWith []) {} tree).tree = sync (hostWith []) {} tree := by
    intro tree member grounded
    obtain ⟨input, read, facts⟩ := exists_ok_of_any (settled tree member)
    obtain ⟨places, facts⟩ := Bool.and_eq_true_iff.1 facts
    obtain ⟨apart, opens⟩ := of_decide_eq_true places
    have both : ∀ report, input.validate tree (hostWith []).now = .ok report →
        (∃ next last, Store.save tree input.storePath report.store = .ok next ∧
            Store.save next input.storePath report.store = .ok last) ∧
          report.store.ReadsBack tree.disk.halves := by
      intro report ran
      rw [ran] at facts
      obtain ⟨saves, readsBack⟩ := Bool.and_eq_true_iff.1 facts
      obtain ⟨next, saved, saves⟩ := exists_ok_of_any saves
      obtain ⟨last, savedAgain, -⟩ := exists_ok_of_any saves
      exact ⟨⟨next, last, saved, savedAgain⟩, of_decide_eq_true readsBack⟩
    exact (sync_again rfl grounded read apart (fun report ran => (both report ran).1) opens
      fun report ran => (both report ran).2).1
  exact ⟨again _ (by simp) (FileTree.isGrounded_of_entries (by decide +kernel)), by decide +kernel,
    again _ (by simp) (FileTree.isGrounded_of_entries (by decide +kernel))⟩

/-- A store that lies in a directory where the snapshot is looked for. -/
def snapshotAbove : List (String × String) :=
  [("HYBRID_MATRIX_PATHS_SNAPSHOT", "state"), ("HYBRID_MATRIX_PATHS_STORE", "state/store.json")]

/-- A store that lies where the configuration is looked for. -/
def storeAsConfig : List (String × String) :=
  [("HYBRID_MATRIX_PATHS_STATE_DIR", "."), ("HYBRID_MATRIX_PATHS_STORE", ".hybrid-matrix.toml")]

/-- The first `sync` finds neither a store nor a snapshot, looks for them at different places, and
saves a store; the second one fails. -/
def FailsAgain (host : Host) (tree : FileTree) : Prop :=
  ∃ input, SyncInput.read host {} tree = .ok input ∧ tree.has input.storePath = false ∧
    input.snapshot = none ∧ input.snapshotPath.place ≠ input.storePath.place ∧
    (sync host {} tree).ending.toOption = some 0 ∧
    (sync host {} tree).tree.octets? input.storePath = some (Text.Utf8.encode Store.empty.text) ∧
    (sync host {} (sync host {} tree).tree).ending.toOption = none

/-- The store is read again as it was written, and yet a second `sync` can fail where the first one
succeeds. -/
theorem sync_fails_again : Store.empty.ReadsBack {} ∧ FailsAgain (hostWith snapshotAbove) bareTree ∧
    FailsAgain (hostWith storeAsConfig) bareTree := by
  have fails : ∀ environment ∈ [snapshotAbove, storeAsConfig],
      (SyncInput.read (hostWith environment) {} bareTree).toOption.any (fun input =>
        decide (bareTree.has input.storePath = false ∧ input.snapshot.isNone = true ∧
          input.snapshotPath.place ≠ input.storePath.place ∧
          (sync (hostWith environment) {} bareTree).ending.toOption = some 0 ∧
          (sync (hostWith environment) {} bareTree).tree.octets? input.storePath =
            some (Text.Utf8.encode Store.empty.text) ∧
          (sync (hostWith environment) {}
            (sync (hostWith environment) {} bareTree).tree).ending.toOption = none)) = true := by
    decide +kernel
  have failsAgain : ∀ environment ∈ [snapshotAbove, storeAsConfig],
      FailsAgain (hostWith environment) bareTree := by
    intro environment member
    obtain ⟨input, read, facts⟩ := exists_ok_of_any (fails environment member)
    obtain ⟨absent, noSnapshot, apart, first, saved, second⟩ := of_decide_eq_true facts
    exact ⟨input, read, absent, Option.isNone_iff_eq_none.1 noSnapshot, apart, first, saved, second⟩
  exact ⟨by decide +kernel, failsAgain _ (by simp), failsAgain _ (by simp)⟩

end CommandLine

end Traceability
