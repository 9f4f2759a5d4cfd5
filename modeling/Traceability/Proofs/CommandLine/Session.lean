/-
# Traceability.Proofs.CommandLine.Session -- commands run one after the other

A session runs commands on one workspace, with the configuration as it is and
everything else as it comes.  `Session.step` says all that one call can do to the
files: leave them, save a store that it has validated, leave a draft of one that cannot
be saved, or put tags into files that are there.

What carries over from call to call is `Session.Stands`: the workspace is found, its
store is loaded, and neither the store nor a target lies where it would change
what is read.  A call keeps it and changes the store in its verdicts alone
(`Session.Stands.perform`), so any run does (`Session.Stands.after`); the account of a
whole run is `Session.keeps_store`.

A call that does not end in success leaves every file as it was, unless it breaks off
(`Session.brokenOff?`).  When `inject` does at a target, the files of the targets before
it have their tags, and its own file may have lost its text
(`Session.keeps_store_but_for_target`); when what is said at the end is not taken, all is
done already.
-/
import Traceability.Proofs.CommandLine.Sync
import Traceability.Proofs.Injection.Run

namespace Traceability

set_option autoImplicit false

/-! ## Tags are put into files that are there -/

section

variable {tree : FileTree} {touched : List String → Prop}

/-- Growth that touches files alone brings none. -/
theorem FileTree.Grows.isSome_fileAt? {next : FileTree} (grows : Grows touched tree next)
    (old : ∀ place, touched place → (tree.fileAt? place).isSome = true) {place : List String}
    (file : (next.fileAt? place).isSome = true) : (tree.fileAt? place).isSome = true := by
  by_cases touches : touched place
  · exact old place touches
  · rwa [grows.others place touches] at file

theorem FileTree.IsGrounded.grow {next : FileTree} (grounded : tree.IsGrounded)
    (grows : Grows touched tree next)
    (old : ∀ place, touched place → (tree.fileAt? place).isSome = true) : next.IsGrounded := by
  intro place octets file
  have before := grows.isSome_fileAt? old (by rw [file]; rfl)
  obtain ⟨found, there⟩ := Option.isSome_iff_exists.1 before
  exact (grounded place found there).grow grows

theorem FileTree.isSome_fileAt?_of_octets {path : Path} {octets : List UInt8}
    (file : tree.octets? path = some octets) : (tree.fileAt? path.place).isSome = true := by
  rw [FileTree.octets?_eq] at file
  obtain ⟨found, led, there⟩ := Option.bind_eq_some_iff.1 file
  rw [FileTree.follow_eq_place led, there]
  rfl

theorem grows_injectTag (tree : FileTree) (path : Path) (target : Target) (sources : List String) :
    FileTree.Grows (fun place => place = path.place ∧ (tree.fileAt? place).isSome = true) tree
      (injectTag tree path target sources).tree := by
  have step := injectTag_step tree path target sources
  generalize injectTag tree path target sources = result at step ⊢
  cases step with
  | refused fault whole => exact .refl tree
  | kept shown file read holds => exact .refl tree
  | wrote shown file read changes =>
      exact (FileTree.grows_writeOctets file _).mono fun place here =>
        ⟨here, here ▸ FileTree.isSome_fileAt?_of_octets file⟩
  | lost file left loses empties =>
      exact (FileTree.grows_writeOctets file left).mono fun place here =>
        ⟨here, here ▸ FileTree.isSome_fileAt?_of_octets file⟩

/-- Where the targets of some links are, if there are files. -/
def TouchesTargets (workspace : Workspace) (tree : FileTree) (pairs : List (Link × Target))
    (place : List String) : Prop :=
  (∃ pair ∈ pairs, place = (workspace.resolve pair.2.filePath).place) ∧
    (tree.fileAt? place).isSome = true

theorem grows_injectAll (workspace : Workspace) (tree : FileTree) (pairs : List (Link × Target)) :
    FileTree.Grows (TouchesTargets workspace tree pairs) tree
      (injectAll workspace tree pairs).tree := by
  induction pairs generalizing tree with
  | nil => exact .refl tree
  | cons pair rest ih =>
      have first := grows_injectTag tree (workspace.resolve pair.2.filePath) pair.2 pair.1.sources
      have here : FileTree.Grows (TouchesTargets workspace tree (pair :: rest)) tree
          (injectTag tree (workspace.resolve pair.2.filePath) pair.2 pair.1.sources).tree := by
        refine first.mono ?_
        rintro place ⟨here, file⟩
        exact ⟨⟨pair, List.mem_cons_self, here⟩, file⟩
      rw [injectAll]
      simp only
      split
      · exact here
      · refine here.trans ((ih _).mono ?_)
        rintro place ⟨⟨other, among, here⟩, file⟩
        exact ⟨⟨other, List.mem_cons_of_mem _ among, here⟩,
          first.isSome_fileAt? (fun _ touches => touches.2) file⟩

end

namespace CommandLine

/-! ## What commands leave of the files -/

theorem Outcome.speak_tree (outcome : Outcome) (host : Host) :
    (outcome.speak host).tree = outcome.tree := by
  unfold speak
  split <;> rfl

theorem run_tree (host : Host) (tree : FileTree) (invocation : Invocation) :
    (run host tree invocation).tree = (carryOut host tree invocation).tree := by
  rw [← Outcome.speak_tree (carryOut host tree invocation) host]
  unfold run Outcome.settle
  simp only
  split
  · rfl
  · split <;> rfl

/-- A command that succeeds and can say what it has to say succeeds as an invocation. -/
theorem run_ending {host : Host} {tree : FileTree} {invocation : Invocation} {status : Nat}
    (ends : (carryOut host tree invocation).ending = .ok status)
    (taken : (carryOut host tree invocation).unsaid? host = none) :
    (run host tree invocation).ending = .ok status := by
  have speaks : (carryOut host tree invocation).speak host = carryOut host tree invocation := by
    simp only [Outcome.speak, taken]
  unfold run Outcome.settle
  simp only [speaks, ends]
  split <;> exact ends

theorem simulatePatch_tree (host : Host) (options : CommonOptions) (tree : FileTree)
    (patch : String) (mode : Option PatchMode) (asJson : Bool) :
    (simulatePatch host options tree patch mode asJson).tree = tree := by
  unfold simulatePatch
  split
  · rfl
  · rfl
  · split <;> rfl

theorem showContext_tree (host : Host) (options : CommonOptions) (tree : FileTree)
    (nodeId : String) : (showContext host options tree nodeId).tree = tree := by
  unfold showContext
  split
  · rfl
  · split <;> rfl

theorem showReport_tree (host : Host) (options : CommonOptions) (tree : FileTree)
    (asJson : Bool) : (showReport host options tree asJson).tree = tree := by
  unfold showReport
  split <;> rfl

/-- What `inject` does: nothing, or it tags the targets of broken links, up to the first failure. -/
theorem inject_cases (host : Host) (options : CommonOptions) (tree : FileTree) :
    (inject host options tree).tree = tree ∨
      ∃ workspace path store, host.workspace options tree = .ok workspace ∧
        workspace.storePath = .ok path ∧ tree.has path = true ∧
        Store.load tree path = .ok store ∧
        (inject host options tree).tree = (InjectProgress.run host options.verbose workspace { tree }
          (brokenTargets store)).tree ∧
        ((InjectProgress.run host options.verbose workspace { tree }
          (brokenTargets store)).failure = none → (inject host options tree).ending = .ok 0) := by
  unfold inject
  split
  · exact .inl rfl
  · rename_i workspace path placed
    obtain ⟨given, found, placed⟩ := bind_eq_ok_iff.1 placed
    obtain ⟨place, located, placed⟩ := bind_eq_ok_iff.1 placed
    obtain ⟨_, -, made⟩ := bind_eq_ok_iff.1 placed
    cases made
    split
    · rename_i there
      split
      · exact .inl rfl
      · rename_i store loaded
        exact .inr ⟨workspace, path, store, found, located, there, loaded,
          injectStore_tree host options workspace tree store,
          injectStore_ending host options workspace tree store⟩
    · exact .inl rfl

/-! ## Sessions -/

/-- What stays the same while commands are run on a workspace. -/
structure Session where
  around : Surroundings
  renderStarter : Config.StarterDocument → Text
  modules : ParserModules
  words : DetailWords
  unsaid? : List String → String → Option WriteFault
  root : Option Path
  config : Option Path
  absolute : around.directory.isAbsolute = true

/-- One invocation of a command that works on the links of a workspace, with whatever else it is
given. -/
structure Call where
  command : Command
  verbose : Bool
  quiet : Bool
  now : ZonedTime
  input : Text
  works : ∀ force, command ≠ .init force

namespace Session

def host (session : Session) (call : Call) : Host :=
  ⟨session.around, session.renderStarter, session.modules, call.now, call.input, session.words,
    session.unsaid?⟩

def options (session : Session) (call : Call) : CommonOptions :=
  ⟨session.root, session.config, call.verbose, call.quiet⟩

def perform (session : Session) (tree : FileTree) (call : Call) : Outcome :=
  run (session.host call) tree ⟨session.options call, call.command⟩

/-- The files after some calls. -/
def after (session : Session) : FileTree → List Call → FileTree
  | tree, [] => tree
  | tree, call :: rest => session.after (session.perform tree call).tree rest

def workspace (session : Session) (tree : FileTree) : Except Failure Workspace :=
  Workspace.ofDirectory tree session.around (session.root.getD session.around.directory)
    session.config

/-- The store of the workspace. -/
def load (session : Session) (tree : FileTree) : Except Failure Store := do
  let workspace ← session.workspace tree
  Store.load tree (← workspace.storePath)

/-- The store that a call saves, if it saves one. -/
def saved? (session : Session) (tree : FileTree) (call : Call) : Option Store :=
  if call.command = .sync then
    (do
      let input ← SyncInput.read (session.host call) (session.options call) tree
      let report ← input.validate tree call.now
      let _ ← (Store.save tree input.storePath report.store).mapError Unsaved.failure
      return report.store).toOption
  else none

/-- The failure at which a call breaks off after it has begun to change files: among the targets whose
tags it puts into files, or at a line that it cannot say when all is done. -/
def brokenOff? (session : Session) (tree : FileTree) (call : Call) : Option Failure :=
  let host := session.host call
  match (carryOut host tree ⟨session.options call, call.command⟩).unsaid? host with
  | some fault => some (.unwritten fault)
  | none =>
      if call.command = .inject then
        (do
          let workspace ← session.workspace tree
          let store ← Store.load tree (← workspace.storePath)
          return (InjectProgress.run host call.verbose workspace { tree }
            (brokenTargets store)).failure).toOption.join
      else none

/-- The stores that some calls save. -/
def saved (session : Session) : FileTree → List Call → List Store
  | _, [] => []
  | tree, call :: rest =>
      (session.saved? tree call).toList ++ session.saved (session.perform tree call).tree rest

/-! ## One call -/

/-- What a call can do to the files. -/
inductive Step (session : Session) (tree : FileTree) (call : Call) (outcome : Outcome) : Prop where
  /-- The files stay as they are. -/
  | kept (same : outcome.tree = tree)
  /-- The store is saved after a validation. -/
  | saved {input : SyncInput} {report : ValidationReport} (syncs : call.command = .sync)
      (read : SyncInput.read (session.host call) (session.options call) tree = .ok input)
      (validated : input.validate tree call.now = .ok report)
      (saved : Store.save tree input.storePath report.store = .ok outcome.tree)
      (ends : session.brokenOff? tree call = none → outcome.ending = .ok 0)
  /-- The store cannot be saved. -/
  | unsaved {input : SyncInput} {report : ValidationReport} {unsaved : Unsaved}
      (syncs : call.command = .sync)
      (read : SyncInput.read (session.host call) (session.options call) tree = .ok input)
      (validated : input.validate tree call.now = .ok report)
      (fails : Store.save tree input.storePath report.store = .error unsaved)
      (left : outcome.tree = unsaved.tree)
  /-- Tags are put into the files of targets. -/
  | tagged {workspace : Workspace} {path : Path} {store : Store} (injects : call.command = .inject)
      (found : session.workspace tree = .ok workspace) (located : workspace.storePath = .ok path)
      (there : tree.has path = true) (loaded : Store.load tree path = .ok store)
      (left : outcome.tree = (InjectProgress.run (session.host call) call.verbose workspace { tree }
        (brokenTargets store)).tree)
      (ends : session.brokenOff? tree call = none → outcome.ending = .ok 0)

section

variable {session : Session} {tree : FileTree} {call : Call}
  (goesOn : session.brokenOff? tree call = none)
include goesOn

/-- A call that does not break off can say what it has to say. -/
theorem unsaid?_of_goesOn : (carryOut (session.host call) tree
    ⟨session.options call, call.command⟩).unsaid? (session.host call) = none := by
  unfold brokenOff? at goesOn
  simp only at goesOn
  split at goesOn
  · cases goesOn
  · assumption

/-- And its run over the targets has come to its end. -/
theorem failure_of_goesOn {workspace : Workspace} {path : Path} {store : Store}
    (injects : call.command = .inject) (found : session.workspace tree = .ok workspace)
    (located : workspace.storePath = .ok path) (loaded : Store.load tree path = .ok store) :
    (InjectProgress.run (session.host call) call.verbose workspace { tree }
      (brokenTargets store)).failure = none := by
  rw [brokenOff?, unsaid?_of_goesOn goesOn] at goesOn
  simp only [injects, if_true] at goesOn
  refine Eq.trans (Eq.symm ?_) goesOn
  refine congrArg (fun result : Except Failure (Option Failure) => result.toOption.join)
    (?_ : _ = .ok _)
  refine bind_eq_ok_iff.2 ⟨workspace, found, bind_eq_ok_iff.2 ⟨path, located, ?_⟩⟩
  rw [loaded]
  rfl

end

theorem step (session : Session) (tree : FileTree) (call : Call) :
    session.Step tree call (session.perform tree call) := by
  have taken := @unsaid?_of_goesOn session tree call
  have ended := @failure_of_goesOn session tree call
  obtain ⟨command, verbose, quiet, now, input, works⟩ := call
  cases command with
  | sync =>
      rw [perform]
      generalize hosted : session.host ⟨.sync, verbose, quiet, now, input, works⟩ = host
        at taken ⊢
      generalize given : session.options ⟨.sync, verbose, quiet, now, input, works⟩ = options
        at taken ⊢
      cases read : SyncInput.read host options tree with
      | error failure =>
          refine .kept ?_
          rw [run_tree]
          simp only [carryOut, sync, read, Outcome.failed]
      | ok found =>
          cases ran : found.validate tree host.now with
          | error failure => exact .kept ((run_tree _ _ _).trans (sync_tree_of_error read ran))
          | ok report =>
              cases saved : Store.save tree found.storePath report.store with
              | error unsaved =>
                  have left := congrArg Outcome.tree (sync_of_unsaved read ran saved)
                  subst hosted given
                  exact .unsaved rfl read ran saved ((run_tree _ _ _).trans left)
              | ok next =>
                  obtain ⟨left, ends⟩ := sync_of_saved read ran saved
                  have after := (run_tree host tree ⟨options, .sync⟩).trans left
                  subst hosted given
                  exact .saved rfl read ran (saved.trans (congrArg Except.ok after.symm))
                    fun goesOn => run_ending ends (taken goesOn)
  | inject =>
      rcases inject_cases (session.host ⟨.inject, verbose, quiet, now, input, works⟩)
        (session.options ⟨.inject, verbose, quiet, now, input, works⟩) tree with
        same | ⟨workspace, path, store, found, located, there, loaded, left, ends⟩
      · exact .kept ((run_tree _ _ _).trans same)
      · exact .tagged rfl found located there loaded ((run_tree _ _ _).trans left)
          fun goesOn => run_ending (ends (ended goesOn rfl found located loaded)) (taken goesOn)
  | simulate patch mode asJson =>
      exact .kept ((run_tree _ _ _).trans (simulatePatch_tree _ _ _ _ _ _))
  | context nodeId => exact .kept ((run_tree _ _ _).trans (showContext_tree _ _ _ _))
  | report asJson => exact .kept ((run_tree _ _ _).trans (showReport_tree _ _ _ _))
  | init force => exact absurd rfl (works force)

/-- What a call saves is the validated store. -/
theorem saved?_of_save {session : Session} {tree next : FileTree} {call : Call} {input : SyncInput}
    {report : ValidationReport} (syncs : call.command = .sync)
    (read : SyncInput.read (session.host call) (session.options call) tree = .ok input)
    (validated : input.validate tree call.now = .ok report)
    (saved : Store.save tree input.storePath report.store = .ok next) :
    session.saved? tree call = some report.store := by
  have written := mapError_eq_ok_iff (f := Unsaved.failure).2 saved
  rw [saved?, if_pos syncs]
  refine congrArg Except.toOption (bind_eq_ok_iff.2 ⟨input, read,
    bind_eq_ok_iff.2 ⟨report, validated, ?_⟩⟩)
  rw [written]
  rfl

/-! ## What stands through a run -/

/-- A workspace with its store, and what keeps a session from changing anything it reads besides
verdicts: the disk lets the store be read, which lies apart from the configuration, also from the
directories that are made for it, and the targets lie apart from both.  Nothing is asked of the
snapshot, which decides verdicts only. -/
structure Stands (session : Session) (workspace : Workspace) (path : Path) (store : Store)
    (tree : FileTree) : Prop where
  grounded : tree.IsGrounded
  found : session.workspace tree = .ok workspace
  located : workspace.storePath = .ok path
  loaded : Store.load tree path = .ok store
  opens : tree.disk.hides path = none
  directories : (tree.makeDirectories path.parent).has path = tree.has path
  storeOffConfig : Config.IsApart tree session.around session.config workspace.root path
  targetsOffStore : ∀ link ∈ store.links, ∀ target ∈ link.targets,
    (workspace.resolve target.filePath).place ≠ path.place
  targetsOffConfig : ∀ file ∈ Config.file? tree session.config workspace.root,
    ∀ link ∈ store.links, ∀ target ∈ link.targets,
      (workspace.resolve target.filePath).place ≠ (session.around.directory.join file).place

namespace Stands

variable {session : Session} {workspace : Workspace} {path : Path} {store : Store} {tree : FileTree}

theorem load (stands : session.Stands workspace path store tree) :
    session.load tree = .ok store := by
  rw [Session.load, stands.found]
  show (workspace.storePath >>= Store.load tree) = .ok store
  rw [stands.located]
  exact stands.loaded

theorem shown (stands : session.Stands workspace path store tree) : tree.disk.Shows path :=
  ⟨Store.answers_of_load stands.loaded, stands.opens⟩

/-- The workspace stands when files have been saved that its configuration is not read from, and the
store that is there then has the same targets. -/
theorem grow {touched : List String → Prop} {next : FileTree} {current : Store}
    (stands : session.Stands workspace path store tree)
    (grows : FileTree.Grows touched tree next) (grounded : next.IsGrounded)
    (stays : session.workspace next = .ok workspace ∧
      Config.file? next session.config workspace.root =
        Config.file? tree session.config workspace.root)
    (loaded : Store.load next path = .ok current)
    (directories : (next.makeDirectories path.parent).has path = next.has path)
    (verdicts : current.withoutVerdicts = store.withoutVerdicts) :
    session.Stands workspace path current next := by
  have opens : next.disk.hides path = none := by rw [grows.disk, stands.opens]
  refine ⟨grounded, stays.1, stands.located, loaded, opens, directories,
    ⟨?_, fun absent => ?_⟩, ?_, ?_⟩
  · rw [stays.2]
    exact stands.storeOffConfig.inForce
  · refine stands.storeOffConfig.lookedFor ?_
    rw [← Option.not_isSome_iff_eq_none] at absent ⊢
    exact fun there => absent (grows.isSome_octets? there)
  · intro link member target among
    obtain ⟨old, there, targets⟩ := Store.exists_link_of_withoutVerdicts verdicts member
    exact stands.targetsOffStore old there target (targets ▸ among)
  · intro file inForce link member target among
    rw [stays.2] at inForce
    obtain ⟨old, there, targets⟩ := Store.exists_link_of_withoutVerdicts verdicts member
    exact stands.targetsOffConfig file inForce old there target (targets ▸ among)

/-- The workspace stands after a store has been saved. -/
theorem save (stands : session.Stands workspace path store tree) {current : Store}
    {next : FileTree} (saved : Store.save tree path current = .ok next)
    (verdicts : current.withoutVerdicts = store.withoutVerdicts) (wellFormed : current.WellFormed)
    (readsBack : current.ReadsBack tree.disk.halves) :
    session.Stands workspace path current next := by
  have loaded := Store.load_save stands.shown saved wellFormed readsBack
  obtain ⟨admits, rfl⟩ := Store.eq_saveOctets_of_save saved
  have grows := FileTree.grows_saveOctets admits (Text.Utf8.encode current.text)
  have stays := Workspace.ofDirectory_of_grows_apart grows stands.grounded session.absolute
    stands.found stands.storeOffConfig
  have there := FileTree.octets?_saveOctets admits (Text.Utf8.encode current.text)
  exact stands.grow grows (FileTree.isGrounded_saveOctets admits _ stands.grounded) stays loaded
    (by rw [FileTree.makeDirectories_of_octets there]) verdicts

/-- The workspace stands after the directory of the store has been made. -/
theorem makeDirectories (stands : session.Stands workspace path store tree) :
    session.Stands workspace path store (tree.makeDirectories path.parent) := by
  have grows := FileTree.grows_makeDirectories tree path.parent
  have loaded : Store.load (tree.makeDirectories path.parent) path = .ok store := by
    rcases Store.eq_empty_or_octets_of_load stands.loaded with ⟨absent, rfl⟩ | ⟨octets, file, -⟩
    · refine Store.load_of_missing ?_ (stands.directories.trans absent)
      rw [grows.disk, stands.shown.answers]
    · rw [FileTree.makeDirectories_of_octets file, stands.loaded]
  have stays := Workspace.ofDirectory_of_grows_apart (grows.mono fun _ => False.elim)
    stands.grounded session.absolute stands.found stands.storeOffConfig
  exact stands.grow grows (stands.grounded.grow grows fun _ => False.elim) stays loaded
    (by rw [FileTree.makeDirectories_again]) rfl

/-- The workspace stands after a draft of its store has been written. -/
theorem draft (stands : session.Stands workspace path store tree)
    (parent : tree.entry? path.parent = some .directory) (octets : List UInt8) :
    session.Stands workspace path store (tree.saveOctets (tree.draft path) octets) := by
  have admits := FileTree.admits_draft parent
  have grows := FileTree.grows_saveOctets admits octets
  have distinct := FileTree.place_draft_ne parent
  have shown : (tree.saveOctets (tree.draft path) octets).disk.Shows path := by
    rw [grows.disk]
    exact stands.shown
  have loaded : Store.load (tree.saveOctets (tree.draft path) octets) path = .ok store := by
    rcases Store.eq_empty_or_octets_of_load stands.loaded with ⟨absent, rfl⟩ | ⟨found, file, read⟩
    · refine Store.load_of_missing shown.answers ?_
      rw [FileTree.has_saveOctets admits octets distinct, FileTree.makeDirectories_draft parent,
        absent]
    · rw [Store.load_of_octets shown (grows.octets? file distinct), grows.disk, read]
  have stays := Workspace.ofDirectory_of_grows_apart grows stands.grounded session.absolute
    stands.found (Workspace.isApart_draft session.absolute stands.found parent)
  obtain ⟨directory, led, -⟩ := Option.bind_eq_some_iff.1 parent
  exact stands.grow grows (FileTree.isGrounded_saveOctets admits _ stands.grounded) stays loaded
    (by rw [FileTree.makeDirectories_of_follow (grows.follow led)]) rfl

/-- The workspace stands after its store could not be saved. -/
theorem leave (stands : session.Stands workspace path store tree) {next : FileTree}
    (leaves : Store.Leaves tree path next) : session.Stands workspace path store next := by
  cases leaves with
  | directory => exact stands.makeDirectories
  | draft parent octets => exact stands.makeDirectories.draft parent octets

/-- The workspace stands after tags have been put into files, and its store is as it was. -/
theorem inject (stands : session.Stands workspace path store tree) (there : tree.has path = true)
    {pairs : List (Link × Target)} (ofStore : ∀ pair ∈ pairs, pair ∈ store.targets) :
    session.Stands workspace path store (injectAll workspace tree pairs).tree := by
  have grows := grows_injectAll workspace tree pairs
  have old : ∀ place, TouchesTargets workspace tree pairs place →
      (tree.fileAt? place).isSome = true := fun _ touches => touches.2
  have offStore : ¬TouchesTargets workspace tree pairs path.place := by
    rintro ⟨⟨pair, among, here⟩, -⟩
    obtain ⟨member, target⟩ := Store.mem_targets.1 (ofStore pair among)
    exact stands.targetsOffStore pair.1 member pair.2 target here.symm
  have offConfig : ∀ file, Config.file? tree session.config workspace.root = some file →
      ¬TouchesTargets workspace tree pairs (session.around.directory.join file).place := by
    rintro file inForce ⟨⟨pair, among, here⟩, -⟩
    obtain ⟨member, target⟩ := Store.mem_targets.1 (ofStore pair among)
    exact stands.targetsOffConfig file inForce pair.1 member pair.2 target here.symm
  rcases Store.eq_empty_or_octets_of_load stands.loaded with ⟨absent, -⟩ | ⟨octets, file, read⟩
  · rw [there] at absent
    cases absent
  · have after := grows.octets? file offStore
    have stays := Workspace.ofDirectory_of_grows grows stands.grounded session.absolute stands.found
      (fun place _ => old _) offConfig
    have shown : (injectAll workspace tree pairs).tree.disk.Shows path := by
      rw [grows.disk]
      exact stands.shown
    have loaded := Store.load_of_octets shown after
    rw [grows.disk, read] at loaded
    exact stands.grow grows (stands.grounded.grow grows old) stays loaded
      (by rw [FileTree.makeDirectories_of_octets after]) rfl

/-- A call reads the workspace, the path of the store and the store that stand. -/
theorem of_read (stands : session.Stands workspace path store tree) {call : Call}
    {input : SyncInput}
    (read : SyncInput.read (session.host call) (session.options call) tree = .ok input) :
    input.workspace = workspace ∧ input.storePath = path ∧ input.store = store := by
  obtain ⟨found, located, loaded, -, -⟩ := SyncInput.read_eq_ok_iff.1 read
  have sameWorkspace : input.workspace = workspace := Except.ok.inj (found.symm.trans stands.found)
  rw [sameWorkspace] at located
  have samePath : input.storePath = path := Except.ok.inj (located.symm.trans stands.located)
  rw [samePath] at loaded
  exact ⟨sameWorkspace, samePath, Except.ok.inj (loaded.symm.trans stands.loaded)⟩

/-- A call keeps the workspace standing.  It changes the store in its verdicts alone, and only `sync`
does. -/
theorem perform (stands : session.Stands workspace path store tree) (call : Call)
    (readsBack : ∀ saved, session.saved? tree call = some saved →
      saved.ReadsBack tree.disk.halves) :
    ∃ current, session.Stands workspace path current (session.perform tree call).tree ∧
      current.withoutVerdicts = store.withoutVerdicts ∧
      (call.command ≠ .sync → current = store) := by
  cases session.step tree call with
  | kept same =>
      rw [same]
      exact ⟨store, stands, rfl, fun _ => rfl⟩
  | @saved input report syncs read validated saved ends =>
      have saves := saved?_of_save syncs read validated saved
      obtain ⟨rfl, rfl, rfl⟩ := stands.of_read read
      obtain ⟨strict, -, ran, -⟩ := SyncInput.validate_eq_ok_iff.1 validated
      have verdicts := Validator.withoutVerdicts_of_run ran
      have wellFormed := Validator.wellFormed_of_run ran (Store.wellFormed_of_load stands.loaded)
      exact ⟨report.store, stands.save saved verdicts wellFormed (readsBack _ saves), verdicts,
        fun other => absurd syncs other⟩
  | @unsaved input report unsaved syncs read validated fails left =>
      obtain ⟨rfl, rfl, rfl⟩ := stands.of_read read
      rw [left]
      exact ⟨input.store, stands.leave (Store.leaves_of_unsaved fails), rfl, fun _ => rfl⟩
  | @tagged inWorkspace inPath inStore injects found located there loaded left ends =>
      obtain rfl : workspace = inWorkspace := Except.ok.inj (stands.found.symm.trans found)
      obtain rfl : path = inPath := Except.ok.inj (stands.located.symm.trans located)
      obtain rfl : store = inStore := Except.ok.inj (stands.loaded.symm.trans loaded)
      obtain ⟨done, among, same⟩ := InjectProgress.exists_prefix_of_run (session.host call)
        call.verbose workspace { tree } rfl (brokenTargets store)
      rw [left, same]
      exact ⟨store, stands.inject there fun pair member =>
        List.mem_of_mem_filter (among.subset member), rfl, fun _ => rfl⟩

end Stands

/-- The disk stays as it is. -/
theorem disk_perform (session : Session) (tree : FileTree) (call : Call) :
    (session.perform tree call).tree.disk = tree.disk := by
  cases session.step tree call with
  | kept same => rw [same]
  | saved syncs read validated saved ends =>
      obtain ⟨admits, same⟩ := Store.eq_saveOctets_of_save saved
      rw [same]
      exact (FileTree.grows_saveOctets admits _).disk
  | unsaved syncs read validated fails left =>
      rw [left]
      exact (Store.leaves_of_unsaved fails).grows.disk
  | tagged injects found located there loaded left ends =>
      obtain ⟨done, -, same⟩ := InjectProgress.exists_prefix_of_run (session.host call)
        call.verbose _ { tree } rfl (brokenTargets _)
      rw [left, same]
      exact (grows_injectAll _ tree _).disk

/-- What holds of the store after one call holds of it after any run. -/
theorem Stands.after {session : Session} {workspace : Workspace} {path : Path} {store : Store}
    {tree : FileTree} (stands : session.Stands workspace path store tree) (calls : List Call)
    (readsBack : ∀ saved ∈ session.saved tree calls, saved.ReadsBack tree.disk.halves) :
    ∃ current, session.Stands workspace path current (session.after tree calls) ∧
      current.withoutVerdicts = store.withoutVerdicts := by
  induction calls generalizing tree store with
  | nil => exact ⟨store, stands, rfl⟩
  | cons call rest ih =>
      rw [saved, List.forall_mem_append] at readsBack
      obtain ⟨next, standsNext, verdicts, -⟩ := stands.perform call fun saved saves =>
        readsBack.1 saved (Option.mem_toList.2 saves)
      rw [← session.disk_perform tree call] at readsBack
      obtain ⟨current, standsNow, later⟩ := ih standsNext readsBack.2
      exact ⟨current, standsNow, later.trans verdicts⟩

/-- A call that does not end in success leaves a file as it is, unless it breaks off and the file is
the one that it was changing, or it is a new draft that `sync` has left. -/
theorem fileAt?_of_failing {session : Session} {workspace : Workspace} {path : Path} {store : Store}
    {tree : FileTree} (stands : session.Stands workspace path store tree) {call : Call}
    (fails : (session.perform tree call).ending ≠ .ok 0) {place : List String}
    (apart : session.brokenOff? tree call = none ∨
      (call.command = .sync → path.place ≠ place) ∧
        (call.command = .inject → ∀ link ∈ store.links, ∀ target ∈ link.targets,
          (workspace.resolve target.filePath).place ≠ place))
    (noDraft : call.command = .sync → FileTree.IsDraftOf path place →
      (tree.entryAt? place).isSome = true) :
    (session.perform tree call).tree.fileAt? place = tree.fileAt? place := by
  cases session.step tree call with
  | kept same => rw [same]
  | saved syncs read validated saved ends =>
      rcases apart with goesOn | elsewhere
      · exact absurd (ends goesOn) fails
      · obtain ⟨-, rfl, -⟩ := stands.of_read read
        obtain ⟨admits, same⟩ := Store.eq_saveOctets_of_save saved
        rw [same]
        exact (FileTree.grows_saveOctets admits _).others place
          fun here => elsewhere.1 syncs here.symm
  | unsaved syncs read validated unsaved left =>
      obtain ⟨-, rfl, -⟩ := stands.of_read read
      rw [left]
      refine (Store.leaves_of_unsaved unsaved).grows.others place ?_
      rintro ⟨absent, draft⟩
      have there := noDraft syncs draft
      rw [absent] at there
      cases there
  | @tagged inWorkspace inPath inStore injects found located there loaded left ends =>
      obtain rfl : workspace = inWorkspace := Except.ok.inj (stands.found.symm.trans found)
      obtain rfl : path = inPath := Except.ok.inj (stands.located.symm.trans located)
      obtain rfl : store = inStore := Except.ok.inj (stands.loaded.symm.trans loaded)
      rcases apart with goesOn | elsewhere
      · exact absurd (ends goesOn) fails
      · obtain ⟨done, before, same⟩ := InjectProgress.exists_prefix_of_run (session.host call)
          call.verbose workspace { tree } rfl (brokenTargets store)
        rw [left, same]
        refine (grows_injectAll workspace tree done).others place ?_
        rintro ⟨⟨pair, among, here⟩, -⟩
        obtain ⟨member, target⟩ :=
          Store.mem_targets.1 (List.mem_of_mem_filter (before.subset among))
        exact elsewhere.2 injects pair.1 member pair.2 target here.symm

/-- **A run changes the store in its verdicts alone.**  After any calls the store is loaded, and apart
from the statuses and times of its links it is the one that was there.  Whatever call comes next, if
it is not `sync` or `inject`, it leaves everything as it is.  If it does not end in success, it
leaves every file as it is, apart from those that it was changing when it broke off: the store for
`sync`, the files of targets for `inject`; and `sync` may leave a draft where nothing was.  If it is
not `sync`, it leaves the store with its verdicts. -/
theorem keeps_store {session : Session} {workspace : Workspace} {path : Path} {store : Store}
    {tree : FileTree} (stands : session.Stands workspace path store tree) (calls : List Call)
    (readsBack : ∀ saved ∈ session.saved tree calls, saved.ReadsBack tree.disk.halves) :
    (∃ current, session.load (session.after tree calls) = .ok current ∧
        current.withoutVerdicts = store.withoutVerdicts) ∧
      ∀ call,
        (call.command ≠ .sync → call.command ≠ .inject →
          (session.perform (session.after tree calls) call).tree = session.after tree calls) ∧
        ((session.perform (session.after tree calls) call).ending ≠ .ok 0 →
          ∀ place, (session.brokenOff? (session.after tree calls) call = none ∨
            (call.command = .sync → path.place ≠ place) ∧
              (call.command = .inject → ∀ link ∈ store.links, ∀ target ∈ link.targets,
                (workspace.resolve target.filePath).place ≠ place)) →
          (call.command = .sync → FileTree.IsDraftOf path place →
            ((session.after tree calls).entryAt? place).isSome = true) →
          (session.perform (session.after tree calls) call).tree.fileAt? place =
            (session.after tree calls).fileAt? place) ∧
        (call.command ≠ .sync →
          session.load (session.perform (session.after tree calls) call).tree =
            session.load (session.after tree calls)) := by
  obtain ⟨current, standsNow, verdicts⟩ := stands.after calls readsBack
  refine ⟨⟨current, standsNow.load, verdicts⟩, fun call => ⟨?_, ?_, ?_⟩⟩
  · intro noSync noInject
    cases session.step (session.after tree calls) call with
    | kept same => exact same
    | saved syncs => exact absurd syncs noSync
    | unsaved syncs => exact absurd syncs noSync
    | tagged injects => exact absurd injects noInject
  · intro fails place apart noDraft
    refine fileAt?_of_failing standsNow fails (apart.imp_right fun elsewhere => ?_) noDraft
    refine ⟨elsewhere.1, fun injects link member => ?_⟩
    obtain ⟨old, there, targets⟩ := Store.exists_link_of_withoutVerdicts verdicts member
    rw [← targets]
    exact elsewhere.2 injects old there
  · intro noSync
    have nothing : ∀ saved, session.saved? (session.after tree calls) call = some saved →
        saved.ReadsBack (session.after tree calls).disk.halves := by
      intro saved saves
      rw [saved?, if_neg noSync] at saves
      cases saves
    obtain ⟨next, standsNext, -, same⟩ := standsNow.perform call nothing
    rw [standsNext.load, standsNow.load, same noSync]

/-- A session in the directory `/w` with nothing given. -/
def bare : Session := ⟨(hostWith []).around, Toml.render, [], {}, fun _ _ => none, none, none, rfl⟩

/-- A call without options. -/
def bareCall (command : Command) (works : ¬∃ force, command = .init force := by simp) : Call :=
  ⟨command, false, false, (hostWith []).now, [], not_exists.1 works⟩

/-- What there is to check of a tree for a workspace to stand in that session. -/
theorem exists_stands {tree : FileTree} (grounded : tree.IsGrounded)
    (settled : (SyncInput.read (hostWith []) {} tree).toOption.any (fun (input : SyncInput) =>
      decide (input.StandsApart (hostWith []) {} tree) &&
        decide (∀ file ∈ Config.file? tree none input.workspace.root,
          ∀ link ∈ input.store.links, ∀ target ∈ link.targets,
            (input.workspace.resolve target.filePath).place ≠
              ((hostWith []).around.directory.join file).place) &&
        decide (tree.disk.hides input.storePath = none) &&
        (tree.octets? input.storePath).isSome) = true) :
    ∃ workspace path store, bare.Stands workspace path store tree := by
  obtain ⟨input, read, settled⟩ := exists_ok_of_any settled
  simp only [Bool.and_eq_true, decide_eq_true_eq] at settled
  obtain ⟨⟨⟨apart, offConfig⟩, opens⟩, there⟩ := settled
  obtain ⟨octets, file⟩ := Option.isSome_iff_exists.1 there
  obtain ⟨found, located, loaded, -, -⟩ := SyncInput.read_eq_ok_iff.1 read
  exact ⟨input.workspace, input.storePath, input.store, grounded, found, located, loaded, opens,
    by rw [FileTree.makeDirectories_of_octets file], apart.config, apart.targets, offConfig⟩

/-- The link is found broken, its tag is put into the file, and it is found valid. -/
def repair : List Call :=
  [bareCall .sync, bareCall .inject, bareCall .sync, bareCall (.report false)]

/-- A workspace in which the file of the link has no tag. -/
def untaggedTree : FileTree := linkedTree "x = 1\n"

/-- The calls tag the file and change the store in its verdicts alone. -/
theorem keeps_store_repair :
    (bare.after untaggedTree repair).octets? ⟨.root, ["w", "f.py"]⟩ =
        some (Text.Utf8.encode "# R1\nx = 1\n".toList) ∧
      ∃ store current, bare.load untaggedTree = .ok store ∧
        bare.load (bare.after untaggedTree repair) = .ok current ∧
        current.withoutVerdicts = store.withoutVerdicts := by
  obtain ⟨workspace, path, store, stands⟩ := @exists_stands untaggedTree
    (FileTree.isGrounded_of_entries (by decide +kernel)) (by decide +kernel)
  obtain ⟨⟨current, after, verdicts⟩, -⟩ := keeps_store stands repair (by decide +kernel)
  exact ⟨by decide +kernel, store, current, stands.load, after, verdicts⟩

/-- A call that puts in a tag with half of a surrogate pair does not end in success, and the file of
the target is empty. -/
theorem keeps_store_but_for_target :
    (∃ workspace path store, bare.Stands workspace path store halfTagTree) ∧
      (bare.perform halfTagTree (bareCall .inject)).ending.toOption = some 1 ∧
      halfTagTree.octets? ⟨.root, ["w", "f.py"]⟩ = some (Text.Utf8.encode "x = 1\n".toList) ∧
      (bare.perform halfTagTree (bareCall .inject)).tree.octets? ⟨.root, ["w", "f.py"]⟩ =
        some [] :=
  ⟨exists_stands (FileTree.isGrounded_of_entries (by decide +kernel)) (by decide +kernel),
    by decide +kernel, by decide +kernel, by decide +kernel⟩

end Session

end CommandLine

end Traceability
