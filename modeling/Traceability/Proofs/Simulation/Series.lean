/-
# Traceability.Proofs.Simulation.Series -- several sections for one file

When a patch is carried out, a section that leads to a file changes the text that
the earlier sections have left there.  `applyInTurn` is what they make of the text
together, and the tree after the patch has it (`textAt_applySections`).

A simulation applies each section to the file as it was before the patch.  So a
safe verdict says that every section alone keeps a tag, and nothing about several
sections together: the tag is sure to stay only where no other section leads to
the file (`keepsTag_of_safe`).
-/
import Traceability.Proofs.Simulation.Prediction

namespace Traceability

set_option autoImplicit false

/-! ## Sections carried out in turn -/

/-- The text of a file after some sections, each applied to what the earlier ones have left. -/
def applyInTurn (mode : PatchMode) : Text → List FilePatch → Except PatchConflict Text
  | text, [] => .ok text
  | text, section_ :: rest =>
      (applyHunks mode section_.path text section_.hunks).bind fun next =>
        applyInTurn mode next rest

theorem applyInTurn_append (mode : PatchMode) (text : Text) (first later : List FilePatch) :
    applyInTurn mode text (first ++ later) =
      (applyInTurn mode text first).bind fun next => applyInTurn mode next later := by
  induction first generalizing text with
  | nil => rfl
  | cons section_ rest ih =>
      rw [List.cons_append, applyInTurn, applyInTurn]
      cases applyHunks mode section_.path text section_.hunks with
      | error conflict => rfl
      | ok next => exact ih next

namespace Workspace

variable {workspace : Workspace} {mode : PatchMode}

/-- The sections that lead to a place. -/
def sectionsAt (workspace : Workspace) (tree : FileTree) (sections : List FilePatch)
    (place : List String) : List FilePatch :=
  sections.filter fun section_ => workspace.place? tree section_.path = some place

theorem mem_sectionsAt {tree : FileTree} {sections : List FilePatch} {place : List String}
    {section_ : FilePatch} :
    section_ ∈ workspace.sectionsAt tree sections place ↔
      section_ ∈ sections ∧ workspace.place? tree section_.path = some place := by
  rw [sectionsAt, List.mem_filter, decide_eq_true_iff]

/-- The only section that leads to a place. -/
theorem sectionsAt_eq_singleton {tree : FileTree} {sections : List FilePatch} {place : List String}
    {section_ : FilePatch} (member : section_ ∈ sections)
    (led : workspace.place? tree section_.path = some place)
    (alone : (workspace.sectionsAt tree sections place).length ≤ 1) :
    workspace.sectionsAt tree sections place = [section_] := by
  have among := mem_sectionsAt.2 ⟨member, led⟩
  obtain ⟨only, is⟩ := List.length_eq_one_iff.1
    (Nat.le_antisymm alone (List.length_pos_of_mem among))
  rw [is, List.mem_singleton] at among
  rw [is, among]

/-- One section leaves every path as it is, and makes of a file what it says if it leads there. -/
theorem applySection_spec {section_ : FilePatch} {tree next : FileTree}
    (free : ∀ hunk ∈ section_.hunks, hunk.HasNoReturns)
    (step : workspace.applySection mode tree section_ = .ok next) {place : List String}
    {octets : List UInt8} (there : tree.fileAt? place = some octets) :
    (∀ file, workspace.place? next file = workspace.place? tree file) ∧
      (∃ new, next.fileAt? place = some new) ∧
      applyInTurn mode (tree.textAt place) (workspace.sectionsAt tree [section_] place) =
        .ok (next.textAt place) := by
  by_cases file : (tree.octets? (workspace.resolve section_.path)).isSome = true
  · have written := applySection_written file step
    refine ⟨written.place?_eq, ?_⟩
    by_cases led : workspace.place? tree section_.path = some place
    · have only : workspace.sectionsAt tree [section_] place = [section_] :=
        List.filter_eq_self.2 fun other among => by simpa [List.mem_singleton.1 among] using led
      obtain ⟨_, found, text, ledToo, thereToo, made, holds⟩ :=
        written.changed section_ List.mem_cons_self
      cases led.symm.trans ledToo
      cases there.symm.trans thereToo
      have kept : '\r' ∉ text :=
        not_mem_applyHunks free (FileTree.not_mem_lossyTextOf octets) made
      refine ⟨⟨_, holds⟩, ?_⟩
      rw [only, applyInTurn, FileTree.textAt_eq there, made, FileTree.textAt_eq holds,
        FileTree.lossyTextOf_encode kept]
      rfl
    · have nothing : workspace.sectionsAt tree [section_] place = [] :=
        List.filter_eq_nil_iff.2 fun other among => by simpa [List.mem_singleton.1 among] using led
      have untouched : next.fileAt? place = some octets := by
        rw [written.others place fun other only => ?_, there]
        rw [List.mem_singleton.1 only]
        exact led
      refine ⟨⟨_, untouched⟩, ?_⟩
      rw [nothing, applyInTurn, FileTree.textAt_eq there, FileTree.textAt_eq untouched]
  · -- Without its file the section does nothing, and it cannot lead to one.
    rw [applySection_of_missing file] at step
    cases step
    have nothing : workspace.sectionsAt tree [section_] place = [] := by
      refine List.filter_eq_nil_iff.2 fun other among led => ?_
      rw [List.mem_singleton.1 among, decide_eq_true_iff] at led
      rw [octets?_resolve_eq_some_iff.2 ⟨place, led, there⟩] at file
      exact file rfl
    exact ⟨fun _ => rfl, ⟨octets, there⟩, by rw [nothing, applyInTurn]⟩

/-- **What carrying out a patch makes of a file**: what the sections that lead to it make of its
text, in turn. -/
theorem textAt_applySections {sections : List FilePatch} {tree patched : FileTree}
    (free : ∀ section_ ∈ sections, ∀ hunk ∈ section_.hunks, hunk.HasNoReturns)
    (applied : workspace.applySections mode tree sections = .ok patched) {place : List String}
    {octets : List UInt8} (there : tree.fileAt? place = some octets) :
    applyInTurn mode (tree.textAt place) (workspace.sectionsAt tree sections place) =
      .ok (patched.textAt place) := by
  induction sections generalizing tree octets with
  | nil =>
      cases applied
      rfl
  | cons section_ rest ih =>
      obtain ⟨here, later⟩ := List.forall_mem_cons.1 free
      obtain ⟨next, step, applied⟩ := bind_eq_ok_iff.1 applied
      obtain ⟨leads, ⟨new, holds⟩, made⟩ := applySection_spec here step there
      have rests := ih later applied holds
      have parts : workspace.sectionsAt tree (section_ :: rest) place =
          workspace.sectionsAt tree [section_] place ++ workspace.sectionsAt next rest place := by
        simp only [sectionsAt, leads]
        rw [← List.filter_append, List.singleton_append]
      rw [parts, applyInTurn_append, made]
      exact rests

end Workspace

/-! ## What a safe verdict says about the tags -/

namespace Simulator

variable {simulator : Simulator} {store : Store} {patch : Text}

/-- A section that is checked without a violation keeps the tag of every target that it concerns,
whatever the parser. -/
theorem keepsTag_of_checkFile {section_ : FilePatch} {pair : Link × Target}
    (done : simulator.checkFile store section_ = .ok [])
    (concerned : pair ∈ simulator.concerned store section_) :
    ∃ current patched, simulator.change? section_ = some (current, patched) ∧
      KeepsTag patched pair.2 := by
  have changed := change?_ne_none_of_checkFile done (List.ne_nil_of_mem concerned)
  obtain ⟨⟨current, patched⟩, change⟩ := Option.ne_none_iff_exists'.1 changed
  obtain ⟨octets, file, rfl, applied⟩ := change?_eq_some_iff.1 change
  refine ⟨_, patched, change, ?_⟩
  have tracked : pair ∈ simulator.tracked store section_.path :=
    List.mem_filter.2 (mem_concerned.1 concerned).2
  simp only [checkFile, file] at done
  cases tracks : simulator.tracked store section_.path with
  | nil =>
      rw [tracks] at tracked
      exact absurd tracked List.not_mem_nil
  | cons first others =>
      rw [tracks] at tracked
      simp only [tracks] at done
      obtain ⟨text, made, done⟩ := bind_eq_ok_iff.1 done
      rw [applied] at made
      cases made
      obtain ⟨after, -, done⟩ := bind_eq_ok_iff.1 done
      obtain ⟨constructs, -, done⟩ := bind_eq_ok_iff.1 done
      have silent := (List.append_eq_nil_iff.1 (Except.ok.inj done)).2
      have nothing := List.filterMap_eq_nil_iff.1 silent pair tracked
      rw [tagViolation_eq, Option.map_eq_none_iff] at nothing
      exact (tagBreach_eq_none_iff patched pair.2).1 nothing

/-- A patch is safe exactly when each section alone is checked without a violation. -/
theorem verdict_eq_safe_iff {result : SimulationResult}
    (ran : simulator.run store patch = .ok result) :
    result.verdict = "SAFE_TO_APPLY" ↔
      ∀ section_ ∈ readPatch patch, simulator.checkFile store section_ = .ok [] := by
  obtain ⟨lists, checked, made⟩ := bind_eq_ok_iff.1 ran
  cases made
  obtain ⟨each, results⟩ := mapM_ok checked
  have found : lists = (readPatch patch).map fun section_ =>
      (simulator.checkFile store section_).toOption.getD [] :=
    results _ fun section_ _ violations done => by rw [done]; rfl
  rw [SimulationResult.verdict_eq_safe_iff, found, List.flatten_eq_nil_iff, List.forall_mem_map]
  refine forall_congr' fun section_ => forall_congr' fun member => ?_
  obtain ⟨violations, done⟩ := each section_ member
  rw [done]
  simp [Except.toOption]

/-- **What a safe verdict says about the tags** in a file that a section of the patch names: each
section that names the file keeps the tag when it is applied alone, and if no other section leads to
the file, the tag stands in what the whole patch makes of it, and in the file on disk after it. -/
theorem keepsTag_of_safe {result : SimulationResult} (ran : simulator.run store patch = .ok result)
    (safe : result.verdict = "SAFE_TO_APPLY") {pair : Link × Target} (among : pair ∈ store.targets)
    {section_ : FilePatch} (member : section_ ∈ readPatch patch)
    (same : simulator.workspace.sameFile pair.2.filePath section_.path = true)
    {place : List String} {octets : List UInt8}
    (led : simulator.workspace.place? simulator.tree section_.path = some place)
    (there : simulator.tree.fileAt? place = some octets) :
    (∃ patched, applyHunks simulator.mode section_.path (simulator.tree.textAt place)
        section_.hunks = .ok patched ∧ KeepsTag patched pair.2) ∧
      ((simulator.workspace.sectionsAt simulator.tree (readPatch patch) place).length ≤ 1 →
        (∀ final, applyInTurn simulator.mode (simulator.tree.textAt place)
            (simulator.workspace.sectionsAt simulator.tree (readPatch patch) place) = .ok final →
          KeepsTag final pair.2) ∧
        ∀ patched, '\r' ∉ patch →
          simulator.workspace.applySections simulator.mode simulator.tree (readPatch patch) =
            .ok patched →
          KeepsTag (patched.textAt place) pair.2) := by
  have file := Workspace.octets?_resolve_eq_some_iff.2 ⟨place, led, there⟩
  have concerned : pair ∈ simulator.concerned store section_ :=
    mem_concerned.2 ⟨by rw [file]; rfl, among, same⟩
  have checked := (verdict_eq_safe_iff ran).1 safe section_ member
  obtain ⟨current, patched, change, keepsTag⟩ := keepsTag_of_checkFile checked concerned
  obtain ⟨found, fileToo, text, applied⟩ := change?_eq_some_iff.1 change
  cases file.symm.trans fileToo
  have before : current = simulator.tree.textAt place := by
    rw [text, FileTree.textAt_eq there]
  rw [before] at applied
  refine ⟨⟨patched, applied, keepsTag⟩, fun alone => ?_⟩
  have inMemory : ∀ final, applyInTurn simulator.mode (simulator.tree.textAt place)
      (simulator.workspace.sectionsAt simulator.tree (readPatch patch) place) = .ok final →
      KeepsTag final pair.2 := by
    intro final made
    have only : simulator.workspace.sectionsAt simulator.tree (readPatch patch) place =
        [section_] :=
      Workspace.sectionsAt_eq_singleton member led alone
    rw [only, applyInTurn, applied] at made
    cases made
    exact keepsTag
  refine ⟨inMemory, fun tree free carriedOut => ?_⟩
  exact inMemory _ (Workspace.textAt_applySections (fun _ => hasNoReturns_of_mem free)
    carriedOut there)

/-- A patch of the second line of a file. -/
def secondLinePatch : Text := "+++ b/f\n@@ -2 +2 @@\n-b\n+c\n".toList

def secondLineSection : FilePatch :=
  ⟨"f", [⟨"@@ -2 +2 @@".toList, some ⟨2, 1, 2, 1⟩, ["-b".toList, "+c".toList], []⟩]⟩

/-- It leaves the tag in the first line. -/
theorem keepsTag_of_safe_second_line :
    ∃ final, applyInTurn .anchored (firstLineSimulator.tree.textAt ["w", "f"])
        (firstLineSimulator.workspace.sectionsAt firstLineSimulator.tree
          (readPatch secondLinePatch) ["w", "f"]) = .ok final ∧
      KeepsTag final firstLineTarget := by
  have member : secondLineSection ∈ readPatch secondLinePatch := by decide +kernel
  have there : firstLineSimulator.tree.fileAt? ["w", "f"] = some [97, 10, 98, 10] := by
    decide +kernel
  have made : applyInTurn .anchored (firstLineSimulator.tree.textAt ["w", "f"])
      (firstLineSimulator.workspace.sectionsAt firstLineSimulator.tree
        (readPatch secondLinePatch) ["w", "f"]) = .ok "a\nc\n".toList := by
    decide +kernel
  obtain ⟨result, ran, safe⟩ : ∃ result, firstLineSimulator.run firstLineStore secondLinePatch =
      .ok result ∧ result.verdict = "SAFE_TO_APPLY" := exists_run_of_verdict (by decide +kernel)
  refine ⟨_, made, ?_⟩
  exact ((keepsTag_of_safe ran safe (List.mem_singleton.2 rfl) member (by decide +kernel)
    (by decide +kernel) there).2 (by decide +kernel)).1 _ made

/-- A target without a construct. -/
def markTarget : Target := ⟨"f.py", .python, "# R1", none, none, []⟩

def markLink : Link := ⟨"M", .oneToOne, ["R1"], [markTarget], .valid, none, []⟩

def markStore : Store := ⟨"1.0", [markLink], ⟨[], [], []⟩, []⟩

/-- A workspace with a file in which the tag stands twice. -/
def markSimulator : Simulator where
  workspace := ⟨⟨.root, ["w"]⟩, []⟩
  tree := { entries := [(["w"], .directory),
    (["w", "f.py"], .file (Text.Utf8.encode "# R1\nx = 1\n# R1\n".toList))] }
  parser := ParserChoice.toParser {}
  mode := .anchored

/-- A series of two patches, each of which takes one of the tags away. -/
def markPatch : Text :=
  "+++ b/f.py\n@@ -1 +0,0 @@\n-# R1\n+++ b/f.py\n@@ -2 +1,0 @@\n-# R1\n".toList

/-- A series of patches is found safe that takes the tag away. -/
theorem safe_series_loses_tag :
    (markLink, markTarget) ∈ markStore.targets ∧
      (∀ section_ ∈ readPatch markPatch,
        markSimulator.workspace.sameFile markTarget.filePath section_.path = true) ∧
      (∃ result, markSimulator.run markStore markPatch = .ok result ∧
        result.verdict = "SAFE_TO_APPLY") ∧
      ∃ final, applyInTurn .anchored (markSimulator.tree.textAt ["w", "f.py"])
          (markSimulator.workspace.sectionsAt markSimulator.tree (readPatch markPatch)
            ["w", "f.py"]) = .ok final ∧
        ¬KeepsTag final markTarget := by
  refine ⟨List.mem_singleton.2 rfl, by decide +kernel, exists_run_of_verdict (by decide +kernel),
    "x = 1\n".toList, by decide +kernel, ?_⟩
  rw [← tagBreach_eq_none_iff]
  decide +kernel

end Simulator

end Traceability
