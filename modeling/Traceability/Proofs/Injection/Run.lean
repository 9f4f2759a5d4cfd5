/-
# Traceability.Proofs.Injection.Run -- injecting repairs links and breaks none

`injectAll` puts the tags of targets into their files in turn and remembers which
targets were tagged.  The command that tags the targets of broken links goes the same
way, to the end if what it says is taken (`InjectProgress.run_eq`), and otherwise some of
it (`InjectProgress.exists_prefix_of_run`).

A later injection may write to a file that an earlier one has written to, under
another path.  What carries the argument over the run is that no file loses a line
(`injectAll_keepsLines`), because every tag stands on one line: so a target whose
tag was found at any time is found from then on (`KeepsLines.findsTag`).  Every
tagged target passes at the end, and every target that passed before
(`injectAll_repairs`).
-/
import Traceability.CommandLine.Commands
import Traceability.Proofs.Fallible
import Traceability.Proofs.Injection.Step
import Traceability.Proofs.Store.Saved
import Traceability.Proofs.Validation

namespace Traceability

set_option autoImplicit false

/-! ## Targets whose tag is found -/

/-- The file of a target is there, and some line of it has the expected tag. -/
def Workspace.FindsTag (workspace : Workspace) (tree : FileTree) (target : Target) : Prop :=
  ∃ octets, tree.octets? (workspace.resolve target.filePath) = some octets ∧
    ∃ line ∈ (FileTree.lossyTextOf octets).lines, target.expectedTag.toList <:+: line

theorem KeepsLines.findsTag {workspace : Workspace} {lost : List Path} {tree next : FileTree}
    {target : Target} (kept : KeepsLines lost tree next)
    (off : (workspace.resolve target.filePath).IsOff lost)
    (found : workspace.FindsTag tree target) : workspace.FindsTag next target := by
  obtain ⟨octets, file, line, among, inLine⟩ := found
  obtain ⟨new, fileNow, sublist⟩ := kept _ octets off file
  exact ⟨new, fileNow, line, sublist.subset among, inLine⟩

/-- A link and a target whose tag stands on one line: what the target expects does, and every source
if it expects nothing. -/
structure HasOneLineTag (pair : Link × Target) : Prop where
  expected : IsOneLine pair.2.expectedTag.toList
  sources : pair.2.expectedTag = "" → ∀ source ∈ pair.1.sources, IsOneLine source.toList

instance (pair : Link × Target) : Decidable (HasOneLineTag pair) :=
  decidable_of_iff (IsOneLine pair.2.expectedTag.toList ∧
      (pair.2.expectedTag = "" → ∀ source ∈ pair.1.sources, IsOneLine source.toList))
    ⟨fun ⟨expected, sources⟩ => ⟨expected, sources⟩, fun plain => ⟨plain.expected, plain.sources⟩⟩

theorem HasOneLineTag.composeTag {pair : Link × Target} (plain : HasOneLineTag pair) :
    IsOneLine (composeTag pair.2.language pair.1.sources pair.2.expectedTag) where
  noFeed := not_mem_composeTag (by decide) plain.expected.noFeed
    fun empty source given => (plain.sources empty source given).noFeed
  noReturn := not_mem_composeTag (by decide) plain.expected.noReturn
    fun empty source given => (plain.sources empty source given).noReturn

/-! ## The run -/

/-- What came of putting the tags of several targets into their files. -/
structure InjectionRun where
  tree : FileTree
  /-- The targets whose file held the tag when it was their turn, with their links. -/
  tagged : List (Link × Target) := []
  /-- The files that have lost their text. -/
  lost : List Path := []
  /-- The failure at which the run has broken off. -/
  failure : Option Failure := none

/-- Puts the tags of targets into their files, one after the other, up to the first failure. -/
def injectAll (workspace : Workspace) : FileTree → List (Link × Target) → InjectionRun
  | tree, [] => { tree }
  | tree, pair :: rest =>
      let path := workspace.resolve pair.2.filePath
      let result := injectTag tree path pair.2 pair.1.sources
      match result.failure? with
      | some failure => { tree := result.tree, lost := result.lost path, failure := some failure }
      | none =>
          let later := injectAll workspace result.tree rest
          { later with
            tagged := if result.isTagged then pair :: later.tagged else later.tagged
            lost := result.lost path ++ later.lost }

namespace CommandLine

namespace InjectProgress

variable (host : Host) (verbose : Bool) (workspace : Workspace)

theorem say_tree (progress : InjectProgress) (line : String) :
    (progress.say host line).tree = progress.tree := by
  unfold say
  split <;> rfl

theorem step_tree (progress : InjectProgress) (pair : Link × Target) :
    (progress.step host verbose workspace pair).tree =
      (injectTag progress.tree (workspace.resolve pair.2.filePath) pair.2 pair.1.sources).tree := by
  unfold step
  simp only
  split
  · rfl
  · split
    · split
      · exact say_tree host _ _
      · rfl
    · rfl

/-- A step fails where the injection does, or at the line that it says when it is told to. -/
theorem step_failure {progress : InjectProgress} (goesOn : progress.failure = none)
    (pair : Link × Target) :
    (progress.step host verbose workspace pair).failure =
        (injectTag progress.tree (workspace.resolve pair.2.filePath) pair.2
          pair.1.sources).failure? ∨
      (injectTag progress.tree (workspace.resolve pair.2.filePath) pair.2
          pair.1.sources).failure? = none ∧
        verbose = true ∧ ∃ said line, host.unsaid? said line ≠ none := by
  unfold step
  simp only
  split
  · rename_i fails
    exact .inl fails.symm
  · rename_i succeeds
    rw [succeeds]
    split
    · split
      · rename_i speaks
        unfold say
        split
        · rename_i fault unsaid
          exact .inr ⟨rfl, speaks, _, _, by rw [unsaid]; exact Option.some_ne_none fault⟩
        · exact .inl goesOn
      · exact .inl goesOn
    · exact .inl goesOn

/-- Wherever the command breaks off, it has gone some of the way of the run. -/
theorem exists_prefix_of_run (progress : InjectProgress) (goesOn : progress.failure = none)
    (pairs : List (Link × Target)) : ∃ done, done <+: pairs ∧
      (progress.run host verbose workspace pairs).tree =
        (injectAll workspace progress.tree done).tree := by
  induction pairs generalizing progress with
  | nil => exact ⟨[], List.prefix_refl [], rfl⟩
  | cons pair rest ih =>
      have tree := step_tree host verbose workspace progress pair
      have one : (injectAll workspace progress.tree [pair]).tree =
          (progress.step host verbose workspace pair).tree := by
        rw [tree]
        simp only [injectAll]
        split <;> rfl
      rw [run]
      by_cases stops : (progress.step host verbose workspace pair).failure.isSome = true
      · rw [if_pos stops]
        exact ⟨[pair], List.prefix_append [pair] rest, one.symm⟩
      · rw [if_neg stops]
        have goesOnToo := Option.not_isSome_iff_eq_none.1 stops
        obtain ⟨done, among, same⟩ := ih _ goesOnToo
        refine ⟨pair :: done, (List.prefix_cons_inj pair).2 among, ?_⟩
        have succeeds : (injectTag progress.tree (workspace.resolve pair.2.filePath) pair.2
            pair.1.sources).failure? = none := by
          rcases step_failure host verbose workspace goesOn pair with fails | ⟨succeeds, -⟩
          · exact fails.symm.trans goesOnToo
          · exact succeeds
        rw [same, injectAll, tree]
        simp only [succeeds]

/-- The command goes the way of the run, and breaks off where it does, if what it says on its way is
taken. -/
theorem run_eq (taken : verbose = true → ∀ said line, host.unsaid? said line = none)
    (progress : InjectProgress) (goesOn : progress.failure = none) (pairs : List (Link × Target)) :
    (progress.run host verbose workspace pairs).tree =
        (injectAll workspace progress.tree pairs).tree ∧
      (progress.run host verbose workspace pairs).failure =
        (injectAll workspace progress.tree pairs).failure := by
  induction pairs generalizing progress with
  | nil => exact ⟨rfl, goesOn⟩
  | cons pair rest ih =>
      have tree := step_tree host verbose workspace progress pair
      have failure : (progress.step host verbose workspace pair).failure =
          (injectTag progress.tree (workspace.resolve pair.2.filePath) pair.2
            pair.1.sources).failure? := by
        rcases step_failure host verbose workspace goesOn pair with
          fails | ⟨-, speaks, said, line, unsaid⟩
        · exact fails
        · exact absurd (taken speaks said line) unsaid
      rw [run, injectAll]
      simp only
      cases fails : (injectTag progress.tree (workspace.resolve pair.2.filePath) pair.2
        pair.1.sources).failure? with
      | some cause =>
          rw [fails] at failure
          simp only [failure, Option.isSome_some, if_true, tree, and_self]
      | none =>
          rw [fails] at failure
          simp only [failure, Option.isSome_none, Bool.false_eq_true, if_false]
          rw [← tree]
          exact ih _ failure

end InjectProgress

/-- The command over the targets of broken links leaves what its run leaves. -/
theorem injectStore_tree (host : Host) (options : CommonOptions) (workspace : Workspace)
    (tree : FileTree) (store : Store) :
    (injectStore host options workspace tree store).tree =
      (InjectProgress.run host options.verbose workspace { tree } (brokenTargets store)).tree := by
  unfold injectStore
  simp only
  split <;> rfl

/-- And it succeeds, unless the run has broken off. -/
theorem injectStore_ending (host : Host) (options : CommonOptions) (workspace : Workspace)
    (tree : FileTree) (store : Store) (goesOn : (InjectProgress.run host options.verbose workspace
      { tree } (brokenTargets store)).failure = none) :
    (injectStore host options workspace tree store).ending = .ok 0 := by
  unfold injectStore
  simp only [goesOn]

end CommandLine

section

variable {workspace : Workspace} {tree : FileTree} {pairs : List (Link × Target)}

theorem injectAll_keepsLines (plain : ∀ pair ∈ pairs, HasOneLineTag pair) :
    KeepsLines (injectAll workspace tree pairs).lost tree (injectAll workspace tree pairs).tree := by
  induction pairs generalizing tree with
  | nil => exact .refl _ tree
  | cons pair rest ih =>
      obtain ⟨here, later⟩ := List.forall_mem_cons.1 plain
      have first := injectTag_keepsLines here.composeTag tree (workspace.resolve pair.2.filePath)
      rw [injectAll]
      simp only
      split
      · exact first
      · exact first.trans (ih later)

/-- The tag of every target that was tagged is found at the end, unless its file was lost. -/
theorem findsTag_of_mem_tagged (plain : ∀ pair ∈ pairs, HasOneLineTag pair) {pair : Link × Target}
    (tagged : pair ∈ (injectAll workspace tree pairs).tagged)
    (off : (workspace.resolve pair.2.filePath).IsOff (injectAll workspace tree pairs).lost) :
    workspace.FindsTag (injectAll workspace tree pairs).tree pair.2 := by
  induction pairs generalizing tree with
  | nil => exact absurd tagged List.not_mem_nil
  | cons first rest ih =>
      obtain ⟨here, later⟩ := List.forall_mem_cons.1 plain
      rw [injectAll] at tagged off ⊢
      simp only at tagged off ⊢
      cases fails : (injectTag tree (workspace.resolve first.2.filePath) first.2
        first.1.sources).failure? with
      | some cause =>
          simp only [fails] at tagged
          exact absurd tagged List.not_mem_nil
      | none =>
          simp only [fails] at tagged off ⊢
          obtain ⟨-, offLater⟩ := List.forall_mem_append.1 off
          split at tagged
          · rename_i firstTagged
            rcases List.mem_cons.1 tagged with rfl | among
            · -- The other injections keep what this one has put into the file.
              exact (injectAll_keepsLines later).findsTag offLater
                (exists_line_of_isTagged here.composeTag firstTagged)
            · exact ih later among offLater
          · exact ih later tagged offLater

/-- A run that breaks off at a text that cannot be written leaves an empty file. -/
theorem exists_empty_of_unwritten {fault : WriteFault}
    (fails : (injectAll workspace tree pairs).failure = some (.unwritten fault)) :
    ∃ path ∈ (injectAll workspace tree pairs).lost,
      (injectAll workspace tree pairs).tree.octets? path = some [] := by
  induction pairs generalizing tree with
  | nil => cases fails
  | cons pair rest ih =>
      rw [injectAll] at fails ⊢
      simp only at fails ⊢
      cases first : (injectTag tree (workspace.resolve pair.2.filePath) pair.2
        pair.1.sources).failure? with
      | some cause =>
          simp only [first, Option.some.injEq] at fails ⊢
          rw [fails] at first
          obtain ⟨loses, empty⟩ := octets?_of_unwritten first
          exact ⟨_, by rw [Injection.lost, if_pos loses]; exact List.mem_cons_self, empty⟩
      | none =>
          simp only [first] at fails ⊢
          obtain ⟨path, among, empty⟩ := ih fails
          exact ⟨path, List.mem_append_right _ among, empty⟩

end

/-- **Injecting repairs links, and breaks none whose files keep their text.**  After the tags of all
targets of broken links have been put into their files, as the command does if what it says is
taken, every target that was tagged passes the validation without a snapshot, and so does every
target of the store that passed it before, if its file was not lost.  So a link is valid afterwards
when its files were not lost and all of its targets were tagged, or it was valid before. -/
theorem injectAll_repairs {workspace : Workspace} {tree : FileTree} {store : Store}
    (plain : ∀ pair ∈ CommandLine.brokenTargets store, HasOneLineTag pair) (strict : Bool) :
    let run := injectAll workspace tree (CommandLine.brokenTargets store)
    let before : Validator := ⟨workspace, tree, none, strict⟩
    let after : Validator := ⟨workspace, run.tree, none, strict⟩
    let isWhole := fun target : Target => (workspace.resolve target.filePath).IsOff run.lost
    (∀ host options, (options.verbose = true → ∀ said line, host.unsaid? said line = none) →
        (CommandLine.injectStore host options workspace tree store).tree = run.tree) ∧
      (∀ pair ∈ run.tagged, isWhole pair.2 →
        (after.check pair.1.matrixId pair.2).passed = true) ∧
      (∀ pair ∈ store.targets, isWhole pair.2 →
        (before.check pair.1.matrixId pair.2).passed = true →
        (after.check pair.1.matrixId pair.2).passed = true) ∧
      ∀ now report, after.run store now = .ok report →
        ∀ (n : Nat) (link : Link), store.links[n]? = some link →
          (∀ target ∈ link.targets, isWhole target) →
          ((∀ target ∈ link.targets, (link, target) ∈ run.tagged) ∨
            ∃ then_ earlier, before.run store then_ = .ok earlier ∧
              (earlier.store.links[n]?).map (·.status) = some .valid) →
          (report.store.links[n]?).map (·.status) = some .valid := by
  intro run before after isWhole
  have found : ∀ pair ∈ run.tagged, isWhole pair.2 → ∀ matrixId,
      (after.check matrixId pair.2).passed = true :=
    fun pair tagged whole matrixId =>
      (Validator.check_passed_iff_of_no_snapshot rfl matrixId pair.2).2
        (findsTag_of_mem_tagged plain tagged whole)
  have kept : ∀ matrixId target, isWhole target → (before.check matrixId target).passed = true →
      (after.check matrixId target).passed = true := by
    intro matrixId target whole passed
    have foundBefore := (Validator.check_passed_iff_of_no_snapshot rfl matrixId target).1 passed
    exact (Validator.check_passed_iff_of_no_snapshot rfl matrixId target).2
      ((injectAll_keepsLines plain).findsTag whole foundBefore)
  have goesTheSameWay : ∀ (host : CommandLine.Host) (options : CommandLine.CommonOptions),
      (options.verbose = true → ∀ said line, host.unsaid? said line = none) →
        (CommandLine.injectStore host options workspace tree store).tree = run.tree := by
    intro host options taken
    rw [CommandLine.injectStore_tree]
    exact (CommandLine.InjectProgress.run_eq host options.verbose workspace taken { tree } rfl _).1
  refine ⟨goesTheSameWay, fun pair tagged whole => found pair tagged whole _,
    fun pair _ whole => kept _ pair.2 whole, ?_⟩
  intro now report ran n link there whole reason
  refine (Validator.valid_iff_of_run ran there).2 fun target member => ?_
  rcases reason with tagged | ⟨then_, earlier, ranBefore, valid⟩
  · exact found (link, target) (tagged target member) (whole target member) link.matrixId
  · exact kept _ _ (whole target member)
      ((Validator.valid_iff_of_run ranBefore there).1 valid target member)

/-- A workspace with one file. -/
def sharedWorkspace : Workspace := ⟨⟨.root, ["w"]⟩, []⟩

def sharedTree : FileTree :=
  { entries := [(["w"], .directory),
      (["w", "f.py"], .file (Text.Utf8.encode "def g():\n    pass\n".toList))] }

/-- A broken link with two targets on that file, under different paths. -/
def sharedLink : Link :=
  ⟨"A", .oneToMany, ["R1"], [⟨"f.py", .python, "R1", some "g", none, []⟩,
    ⟨"./f.py", .python, "", none, none, []⟩], .broken, none, []⟩

/-- A broken link whose target on that file passes as it is. -/
def passingLink : Link :=
  ⟨"B", .oneToOne, ["R2"], [⟨"/w/f.py", .python, "def g", none, none, []⟩], .broken, none, []⟩

def sharedStore : Store := ⟨"1.0", [sharedLink, passingLink], ⟨[], [], []⟩, []⟩

/-- When the workspace is validated. -/
def sharedTime : ZonedTime := ⟨2024, 1, 2, 3, 4, 5, 678000, 0⟩

/-- Both links are valid after their tags have been put into the file: the first because its targets
were tagged, the second because it was valid before. -/
theorem injectAll_repairs_shared_file :
    ∃ report, Validator.run ⟨sharedWorkspace,
        (injectAll sharedWorkspace sharedTree (CommandLine.brokenTargets sharedStore)).tree, none,
        false⟩ sharedStore sharedTime = .ok report ∧
      (report.store.links[0]?).map (·.status) = some .valid ∧
      (report.store.links[1]?).map (·.status) = some .valid := by
  have plain : ∀ pair ∈ CommandLine.brokenTargets sharedStore, HasOneLineTag pair := by
    decide +kernel
  have tagged : (injectAll sharedWorkspace sharedTree (CommandLine.brokenTargets sharedStore)).tagged =
      CommandLine.brokenTargets sharedStore := rfl
  have nothingLost : (injectAll sharedWorkspace sharedTree
      (CommandLine.brokenTargets sharedStore)).lost = [] := rfl
  have ran : ∀ validator : Validator, ∃ report, validator.run sharedStore sharedTime = .ok report :=
    fun _ => ⟨_, rfl⟩
  obtain ⟨earlier, ranBefore⟩ := ran ⟨sharedWorkspace, sharedTree, none, false⟩
  obtain ⟨report, ranAfter⟩ := ran ⟨sharedWorkspace,
    (injectAll sharedWorkspace sharedTree (CommandLine.brokenTargets sharedStore)).tree, none, false⟩
  obtain ⟨-, -, -, valid⟩ :=
    @injectAll_repairs sharedWorkspace sharedTree sharedStore plain false
  rw [nothingLost] at valid
  refine ⟨report, ranAfter, ?_, ?_⟩
  · refine valid _ report ranAfter 0 sharedLink rfl (fun _ _ => nofun)
      (Or.inl fun target member => ?_)
    rw [tagged]
    exact List.mem_append_left _ (List.mem_map_of_mem member)
  · refine valid _ report ranAfter 1 passingLink rfl (fun _ _ => nofun)
      (Or.inr ⟨_, earlier, ranBefore, ?_⟩)
    exact (Validator.valid_iff_of_run ranBefore rfl).2 (by decide +kernel)

/-- A file and a store with two links to it: the first expects a tag with half of a surrogate pair, in
the place of the mark, and the second what is there. -/
def halfTagTree : FileTree :=
  let links := [Store.linkDocument "M" "f.py" "# R1?", Store.linkDocument "N" "f.py" "x = 1"]
  let text := (Store.linksText links).flatMap fun c => if c = '?' then "\\ud800".toList else [c]
  { entries := [(["w"], .directory), (["w", "f.py"], .file (Text.Utf8.encode "x = 1\n".toList)),
      (["w", ".hybrid"], .directory),
      (["w", ".hybrid", "hybrid-matrix.json"], .file (Text.Utf8.encode text))] }

/-- The tag of the first link empties the file, and the target of the second passes no longer. -/
theorem injectAll_empties_file :
    ∃ store,
      Store.load halfTagTree ⟨.root, ["w", ".hybrid", "hybrid-matrix.json"]⟩ = .ok store ∧
      (∀ pair ∈ CommandLine.brokenTargets store, HasOneLineTag pair) ∧
      ∃ pair ∈ store.targets,
        (Validator.check ⟨sharedWorkspace, halfTagTree, none, false⟩ pair.1.matrixId
          pair.2).passed = true ∧
        (Validator.check ⟨sharedWorkspace,
            (injectAll sharedWorkspace halfTagTree (CommandLine.brokenTargets store)).tree, none,
            false⟩ pair.1.matrixId pair.2).passed = false := by
  have settled : (Store.load halfTagTree
      ⟨.root, ["w", ".hybrid", "hybrid-matrix.json"]⟩).toOption.any (fun (store : Store) =>
        decide (∀ pair ∈ CommandLine.brokenTargets store, HasOneLineTag pair) &&
        store.targets.any fun pair =>
          (Validator.check ⟨sharedWorkspace, halfTagTree, none, false⟩ pair.1.matrixId
            pair.2).passed &&
          !(Validator.check ⟨sharedWorkspace,
            (injectAll sharedWorkspace halfTagTree (CommandLine.brokenTargets store)).tree, none,
            false⟩ pair.1.matrixId pair.2).passed) = true := by decide +kernel
  obtain ⟨store, loaded, facts⟩ := exists_ok_of_any settled
  obtain ⟨plain, breaks⟩ := Bool.and_eq_true_iff.1 facts
  obtain ⟨pair, member, broken⟩ := List.any_eq_true.1 breaks
  obtain ⟨passed, fails⟩ := Bool.and_eq_true_iff.1 broken
  exact ⟨store, loaded, of_decide_eq_true plain, pair, member, passed, by simpa using fails⟩

end Traceability
