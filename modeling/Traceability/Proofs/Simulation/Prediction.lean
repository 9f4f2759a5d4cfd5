/-
# Traceability.Proofs.Simulation.Prediction -- a simulation foretells the strict validation

For a target that passes the strict validation before a patch, the simulation of
the patch reports a violation exactly when the target fails the strict
validation of the patched files (`run_iff_check_fails`).

The two decide this in different ways.  The validation looks for the tag line by
line, finds the node of the file in a snapshot and asks that node for the
construct, callables first; the simulation looks for the tag in the whole text,
parses the text itself and searches the tree, types first.  The validation accepts
a node that meets the target by its own lookup (`accepts_iff_ownMeets`), the
simulation one that meets it by the search (`keepsConstruct_iff_meets`), and
without a clash of names that is the same (`Node.ownMeets_iff_meets`).

Both look at the text that the patch makes of a file: the simulation has it in
memory, the validation finds it on disk (`Yields.exists_file`).
-/
import Mathlib.Data.List.Nodup
import Traceability.Proofs.Patch.LineEnds
import Traceability.Proofs.Patch.Written
import Traceability.Proofs.Simulation.Verdict
import Traceability.Proofs.Snapshot.Files
import Traceability.Proofs.Source.Fingerprint
import Traceability.Proofs.Source.Structure
import Traceability.Proofs.Text.Utf8
import Traceability.Proofs.Validation

namespace Traceability

set_option autoImplicit false

/-! ## Files before and after a patch -/

/-- The places of the files of a workspace. -/
structure Workspace.HoldsFile (workspace : Workspace) (tree : FileTree) (place : List String) :
    Prop where
  below : workspace.root.names <+: place
  named : ∀ name ∈ place, Path.IsName name
  file : (tree.octets? ⟨.root, place⟩).isSome = true

/-- A file of a workspace is among the entries of the tree. -/
theorem Workspace.HoldsFile.mem_entries {workspace : Workspace} {tree : FileTree}
    {place : List String} (holds : workspace.HoldsFile tree place) :
    ∃ octets, (place, .file octets) ∈ tree.entries := by
  obtain ⟨octets, there⟩ := Option.isSome_iff_exists.1 holds.file
  rw [FileTree.octets?_eq] at there
  obtain ⟨found, led, there⟩ := Option.bind_eq_some_iff.1 there
  have absolute : (Path.mk .root place).anchor ≠ .relative := nofun
  have normal := FileTree.follow_eq_normalize absolute led
  rw [Path.normalize_of_plain fun member => (holds.named _ member).notParent rfl] at normal
  cases normal
  exact ⟨octets, FileTree.mem_entries_of_fileAt? there⟩

/-- The text of the file at a place. -/
def FileTree.textAt (tree : FileTree) (place : List String) : Text :=
  lossyTextOf ((tree.fileAt? place).getD [])

theorem FileTree.textAt_eq {tree : FileTree} {place : List String} {octets : List UInt8}
    (there : tree.fileAt? place = some octets) : tree.textAt place = lossyTextOf octets := by
  rw [textAt, there, Option.getD_some]

namespace Simulator

/-- The text that the file at a place would have after the sections of a patch. -/
def virtualAt (simulator : Simulator) (sections : List FilePatch) (place : List String) : Text :=
  match (sections.find? fun section_ =>
      simulator.workspace.place? simulator.tree section_.path = some place).bind
        simulator.change? with
  | some (_, patched) => patched
  | none => simulator.tree.textAt place

/-- A patch that can be carried out on the files of a workspace, and what it makes of them. -/
structure CarriesOut (simulator : Simulator) (patch : Text) (patched : FileTree) : Prop where
  free : '\r' ∉ patch
  files : ∀ section_ ∈ readPatch patch,
    (simulator.tree.octets? (simulator.workspace.resolve section_.path)).isSome = true
  apart : (readPatch patch).Pairwise fun a b =>
    simulator.workspace.place? simulator.tree a.path ≠
      simulator.workspace.place? simulator.tree b.path
  applied : simulator.workspace.applySections simulator.mode simulator.tree (readPatch patch) =
    .ok patched

/-- A patch with at most one section for each existing file, and what it makes of the files.  A
section may name a file that does not exist; it does nothing then. -/
structure Yields (simulator : Simulator) (patch : Text) (patched : FileTree) : Prop where
  free : '\r' ∉ patch
  apart : (simulator.workspace.present simulator.tree (readPatch patch)).Pairwise fun a b =>
    simulator.workspace.place? simulator.tree a.path ≠
      simulator.workspace.place? simulator.tree b.path
  applied : simulator.workspace.applySections simulator.mode simulator.tree (readPatch patch) =
    .ok patched

theorem CarriesOut.yields {simulator : Simulator} {patch : Text} {patched : FileTree}
    (carried : simulator.CarriesOut patch patched) : simulator.Yields patch patched :=
  ⟨carried.free, carried.apart.filter _, carried.applied⟩

end Simulator

/-! ## What both ask of a node -/

/-- The node declares the construct of the target, with the expected fingerprint if there is one. -/
def Node.Meets (node : Node) (target : Target) : Prop :=
  ∀ name, target.construct? = some name → ∃ construct, node.findConstruct? name = some construct ∧
    ∀ expected, target.expectedFingerprint = some expected → expected ≠ "" →
      construct.fingerprint = some expected

/-- The same of the construct that the node's own lookup gives. -/
def Node.OwnMeets (node : Node) (target : Target) : Prop :=
  ∀ name, target.construct? = some name → ∃ construct, node.ownConstruct? name = some construct ∧
    ∀ expected, target.expectedFingerprint = some expected → expected ≠ "" →
      construct.fingerprint = some expected

/-- Every construct of the node has a fingerprint that is not empty. -/
def Node.HasFingerprints (node : Node) : Prop :=
  ∀ construct ∈ node.data ++ node.outputs, ∃ print, construct.fingerprint = some print ∧ print ≠ ""

theorem hasFingerprints_parse {parser : SourceParser}
    (nonempty : ∀ content, contentHash parser.settings content ≠ "") (content : Text)
    (path : String) : (parser.parse content path).HasFingerprints := by
  intro construct member
  obtain ⟨text, print⟩ := SourceParser.exists_fingerprint member
  exact ⟨_, print, nonempty text⟩

theorem Node.mem_of_ownConstruct? {node : Node} {name : String} {construct : Construct}
    (found : node.ownConstruct? name = some construct) :
    construct ∈ node.data ++ node.outputs := by
  rcases Option.or_eq_some_iff.1 found with callable | ⟨-, type⟩
  · exact List.mem_append_right _ (Construct.named?_eq_some callable).1
  · exact List.mem_append_left _ (Construct.named?_eq_some type).1

/-- Strict validation accepts a node that meets the target by its own lookup, if all of its
constructs have fingerprints. -/
theorem accepts_iff_ownMeets {validator : Validator} (strict : validator.strict = true)
    {node : Node} (taken : node.HasFingerprints) (target : Target) :
    validator.Accepts node target ↔ node.OwnMeets target := by
  unfold Validator.Accepts Node.OwnMeets
  simp only [strict, true_implies, Validator.driftWarning?_eq_none_iff]
  constructor
  · intro accepted name named
    obtain ⟨construct, found, agree⟩ := accepted name named
    refine ⟨construct, found, fun expected given nonempty => ?_⟩
    obtain ⟨print, has, known⟩ := taken construct (Node.mem_of_ownConstruct? found)
    rw [has, agree expected print given nonempty has known]
  · intro meets name named
    obtain ⟨construct, found, agree⟩ := meets name named
    refine ⟨construct, found, fun expected print given nonempty has _ => ?_⟩
    rw [agree expected given nonempty, Option.some.injEq] at has
    exact has

/-- Without a clash of names the two lookups ask for the same. -/
theorem Node.ownMeets_iff_meets {node : Node} (leaf : node.children = []) (apart : node.NamesApart)
    (target : Target) : node.OwnMeets target ↔ node.Meets target := by
  simp only [OwnMeets, Meets, ownConstruct?_eq_findConstruct? leaf apart]

/-- A patch keeps a construct that met the target exactly when it still meets it. -/
theorem keepsConstruct_iff_meets {before : Node} {target : Target} (met : before.Meets target)
    (after : Node) : KeepsConstruct before after target ↔ after.Meets target := by
  constructor
  · intro keeps name named
    have declared := (Node.findConstruct?_ne_none_iff name after).2 (keeps.declared name named)
    obtain ⟨construct, found⟩ := Option.ne_none_iff_exists'.1 declared
    refine ⟨construct, found, fun expected given nonempty => ?_⟩
    obtain ⟨old, was, agreed⟩ := met name named
    have had : (before.findConstruct? name).bind (·.fingerprint) = some expected := by
      rw [was, Option.bind_some, agreed expected given nonempty]
    have has := keeps.unchanged name expected named given nonempty had
    rwa [found, Option.bind_some] at has
  · intro meets
    refine ⟨fun name named => ?_, fun name expected named given nonempty _ => ?_⟩
    · obtain ⟨construct, found, -⟩ := meets name named
      exact (Node.findConstruct?_ne_none_iff name after).1 (by simp [found])
    · obtain ⟨construct, found, agree⟩ := meets name named
      rw [found, Option.bind_some, agree expected given nonempty]

/-- Of the path of a file, only the last name matters for what is found in its structure. -/
theorem findConstruct?_congr {parser : SourceParser} {content : Text} {a b : String}
    (same : (Path.ofString a).name = (Path.ofString b).name) (name : String) :
    (parser.parse content a).findConstruct? name = (parser.parse content b).findConstruct? name := by
  rw [Node.findConstruct?_of_leaf rfl, Node.findConstruct?_of_leaf rfl,
    SourceParser.outputs_congr same, SourceParser.data_congr same]

theorem meets_congr {parser : SourceParser} {content : Text} {a b : String}
    (same : (Path.ofString a).name = (Path.ofString b).name) (target : Target) :
    (parser.parse content a).Meets target ↔ (parser.parse content b).Meets target := by
  simp only [Node.Meets, findConstruct?_congr same]

/-- If a tag stood in a line, it stands in a text exactly when it stands in one of its lines. -/
theorem keepsTag_iff_exists_line {before : Text} {target : Target}
    (found : ∃ line ∈ before.lines, target.expectedTag.toList <:+: line) (text : Text) :
    KeepsTag text target ↔ ∃ line ∈ text.lines, target.expectedTag.toList <:+: line := by
  obtain ⟨line, inLines, inLine⟩ := found
  have unbroken : '\n' ∉ target.expectedTag.toList := fun feed =>
    Text.not_mem_of_mem_lines inLines (inLine.subset feed)
  exact Text.infix_iff_exists_line unbroken text

/-! ## What a run reports about one target -/

namespace Simulator

variable {simulator : Simulator} {parse : Text → String → Node} {store : Store} {patch : Text}

theorem exists_reported_iff {breach : Link × Target → Option ViolationKind}
    (blind : ∀ a b : Link × Target, a.2 = b.2 → breach a = breach b)
    {pairs : List (Link × Target)} {pair : Link × Target} (member : pair ∈ pairs) :
    (∃ violation ∈ reported breach pairs,
      violation.matrixId = pair.1.matrixId ∧ violation.target = pair.2) ↔ breach pair ≠ none := by
  simp only [reported, List.mem_filterMap, Option.map_eq_some_iff]
  constructor
  · rintro ⟨violation, ⟨other, -, kind, found, rfl⟩, -, same⟩
    rw [← blind other pair same, found]
    exact Option.some_ne_none kind
  · intro broken
    obtain ⟨kind, found⟩ := Option.ne_none_iff_exists'.1 broken
    exact ⟨blame pair kind, ⟨pair, member, kind, found, rfl⟩, rfl, rfl⟩

theorem exists_pair_of_mem_reported {breach : Link × Target → Option ViolationKind}
    {pairs : List (Link × Target)} {violation : Violation}
    (member : violation ∈ reported breach pairs) : ∃ pair ∈ pairs, violation.target = pair.2 := by
  obtain ⟨pair, among, found⟩ := List.mem_filterMap.1 member
  obtain ⟨kind, -, rfl⟩ := Option.map_eq_some_iff.1 found
  exact ⟨pair, among, rfl⟩

/-- A run succeeds when all changes can be made that concern a target. -/
theorem exists_run
    (total : ∀ content path, simulator.parser.parse content path = .ok (parse content path))
    (possible : ∀ section_ ∈ readPatch patch,
      simulator.concerned store section_ ≠ [] → simulator.change? section_ ≠ none) :
    ∃ result, simulator.run store patch = .ok result := by
  have checked : ∀ section_ ∈ readPatch patch, simulator.checkFile store section_ =
      .ok (reported (simulator.constructUnder parse section_)
          (simulator.concerned store section_) ++
        reported (simulator.tagUnder section_) (simulator.concerned store section_)) := by
    intro section_ member
    by_cases nobody : simulator.concerned store section_ = []
    · rw [checkFile_of_nobody nobody, nobody]
      rfl
    · exact checkFile_eq total store (possible section_ member nobody)
  rw [run, mapM_of_ok checked]
  exact ⟨_, rfl⟩

/-- A run reports a violation for a target exactly when some section that concerns it breaks
something of it. -/
theorem exists_violation_iff
    (total : ∀ content path, simulator.parser.parse content path = .ok (parse content path))
    {result : SimulationResult} (ran : simulator.run store patch = .ok result)
    {pair : Link × Target} (among : pair ∈ store.targets) :
    (∃ violation ∈ result.violations,
      violation.matrixId = pair.1.matrixId ∧ violation.target = pair.2) ↔
      ∃ section_ ∈ readPatch patch, pair ∈ simulator.concerned store section_ ∧
        ¬(simulator.constructUnder parse section_ pair = none ∧
          simulator.tagUnder section_ pair = none) := by
  have constructs : ∀ section_, pair ∈ simulator.concerned store section_ →
      ((∃ violation ∈ reported (simulator.constructUnder parse section_)
          (simulator.concerned store section_),
        violation.matrixId = pair.1.matrixId ∧ violation.target = pair.2) ↔
        simulator.constructUnder parse section_ pair ≠ none) := fun section_ concerned =>
    exists_reported_iff (fun a b same => by simp only [constructUnder, same]) concerned
  have tags : ∀ section_, pair ∈ simulator.concerned store section_ →
      ((∃ violation ∈ reported (simulator.tagUnder section_)
          (simulator.concerned store section_),
        violation.matrixId = pair.1.matrixId ∧ violation.target = pair.2) ↔
        simulator.tagUnder section_ pair ≠ none) := fun section_ concerned =>
    exists_reported_iff (fun a b same => by simp only [tagUnder, same]) concerned
  rw [(run_ok total ran).2]
  constructor
  · rintro ⟨violation, found, about⟩
    obtain ⟨section_, member, found⟩ := List.mem_flatMap.1 found
    have concerned : pair ∈ simulator.concerned store section_ := by
      have tracked : ∃ tracked ∈ simulator.concerned store section_,
          violation.target = tracked.2 :=
        (List.mem_append.1 found).elim exists_pair_of_mem_reported exists_pair_of_mem_reported
      obtain ⟨tracked, concerns, target⟩ := tracked
      obtain ⟨file, -, same⟩ := mem_concerned.1 concerns
      refine mem_concerned.2 ⟨file, among, ?_⟩
      rwa [← about.2, target]
    refine ⟨section_, member, concerned, fun nothing => ?_⟩
    rcases List.mem_append.1 found with inConstructs | inTags
    · exact (constructs section_ concerned).1 ⟨violation, inConstructs, about⟩ nothing.1
    · exact (tags section_ concerned).1 ⟨violation, inTags, about⟩ nothing.2
  · rintro ⟨section_, member, concerned, broken⟩
    rw [not_and_or, ← ne_eq, ← ne_eq, ← constructs section_ concerned,
      ← tags section_ concerned] at broken
    rcases broken with ⟨violation, found, about⟩ | ⟨violation, found, about⟩
    · exact ⟨violation, List.mem_flatMap.2 ⟨section_, member, List.mem_append_left _ found⟩, about⟩
    · exact ⟨violation, List.mem_flatMap.2 ⟨section_, member, List.mem_append_right _ found⟩, about⟩

/-- If no other section concerns the target, it is this section that matters. -/
theorem exists_violation_iff_of_alone
    (total : ∀ content path, simulator.parser.parse content path = .ok (parse content path))
    {result : SimulationResult} (ran : simulator.run store patch = .ok result)
    {section_ : FilePatch} (member : section_ ∈ readPatch patch) {pair : Link × Target}
    (among : pair ∈ store.targets)
    (alone : ∀ other ∈ readPatch patch, pair ∈ simulator.concerned store other →
      other = section_) :
    (∃ violation ∈ result.violations,
      violation.matrixId = pair.1.matrixId ∧ violation.target = pair.2) ↔
      pair ∈ simulator.concerned store section_ ∧
        ¬(simulator.constructUnder parse section_ pair = none ∧
          simulator.tagUnder section_ pair = none) := by
  rw [exists_violation_iff total ran among]
  constructor
  · rintro ⟨other, among, concerned, broken⟩
    cases alone other among concerned
    exact ⟨concerned, broken⟩
  · rintro ⟨concerned, broken⟩
    exact ⟨section_, member, concerned, broken⟩

end Simulator

/-! ## The file that a target and a section name -/

/-- A path that names the same file as the one under which a node was found leads to the place of
that node, and its last name is that of the place. -/
theorem Workspace.place?_of_listed {workspace : Workspace} {tree : FileTree}
    {places : List (List String)} (proper : ∀ place ∈ places, ∀ name ∈ place, Path.IsName name)
    {file other : String} {place : List String}
    (listed : workspace.listed? places file = some place)
    (same : workspace.sameFile file other = true) {octets : List UInt8}
    (there : tree.octets? (workspace.resolve other) = some octets) :
    workspace.place? tree other = some place ∧ tree.fileAt? place = some octets ∧
      (Path.ofString (workspace.resolve other).toString).name =
        (Path.ofString (spelling place)).name := by
  obtain ⟨member, normal⟩ := listed?_spec proper listed
  rw [(workspace.sameFile_iff file other).1 same] at normal
  obtain ⟨front, last, directory, names, -, led, holds⟩ := FileTree.file_split there
  have anchor : (workspace.resolve other).anchor = .root := congrArg Path.anchor normal
  have whole : directory ++ [last] = place := by
    have absolute : (workspace.resolve other).anchor ≠ .relative := by simp [anchor]
    have folded := FileTree.follow_eq_normalize absolute led
    rw [normal, anchor] at folded
    exact (congrArg Path.names folded).symm
  subst whole
  refine ⟨led, holds, ?_⟩
  have isName : Path.IsName last := proper _ member last (by simp)
  have spelled : workspace.resolve other = ⟨.root, front ++ [last]⟩ := by
    rw [← anchor, ← names]
  rw [spelled, spelling, Path.name_ofString_toString isName, Path.name_ofString_toString isName]

/-- What strict validation asks of a file whose text is the one in the snapshot. -/
theorem check_passed_iff_ownMeets {workspace : Workspace} {tree : FileTree}
    {parser : SourceParser} {read : List String → Text} {places : List (List String)}
    {place : List String} {octets : List UInt8} {target : Target}
    (nonempty : ∀ content, contentHash parser.settings content ≠ "")
    (listed : workspace.listed? places target.filePath = some place)
    (there : tree.octets? (workspace.resolve target.filePath) = some octets)
    (text : FileTree.lossyTextOf octets = read place) (matrixId : String) :
    (Validator.check ⟨workspace, tree, some (Snapshot.ofFiles parser read places), true⟩
        matrixId target).passed = true ↔
      (∃ line ∈ (read place).lines, target.expectedTag.toList <:+: line) ∧
        (parser.parse (read place) (spelling place)).OwnMeets target := by
  rw [Validator.check_passed_iff rfl]
  simp only [there, Option.some.injEq, exists_eq_left', text, Workspace.fileNode?_ofFiles, listed,
    Option.map_some]
  rw [accepts_iff_ownMeets rfl (hasFingerprints_parse nonempty _ _)]

/-- A target that passes with the snapshot of some files is on a file that is there, and the
snapshot has that file. -/
theorem exists_listed_of_passed {workspace : Workspace} {tree : FileTree} {parser : SourceParser}
    {read : List String → Text} {places : List (List String)} {target : Target}
    (proper : ∀ place ∈ places, ∀ name ∈ place, Path.IsName name) {matrixId : String}
    (passes : (Validator.check ⟨workspace, tree, some (Snapshot.ofFiles parser read places), true⟩
      matrixId target).passed = true) :
    ∃ place octets, workspace.listed? places target.filePath = some place ∧
      workspace.place? tree target.filePath = some place ∧ tree.fileAt? place = some octets ∧
      FileTree.lossyTextOf octets = tree.textAt place := by
  obtain ⟨octets, file, -, node, found, -⟩ := (Validator.check_passed_iff rfl _ _).1 passes
  rw [Workspace.fileNode?_ofFiles] at found
  obtain ⟨place, listed, -⟩ := Option.map_eq_some_iff.1 found
  obtain ⟨led, there, -⟩ := Workspace.place?_of_listed proper listed
    ((workspace.sameFile_iff _ _).2 rfl) file
  exact ⟨place, octets, listed, led, there, (FileTree.textAt_eq there).symm⟩

namespace Simulator

variable {simulator : Simulator} {patch : Text} {patched : FileTree}

/-! ## What a patch yields -/

theorem Yields.written (yields : simulator.Yields patch patched) :
    Written simulator.workspace simulator.mode
      (simulator.workspace.present simulator.tree (readPatch patch)) simulator.tree patched :=
  Workspace.applySections_written (fun _ member => (Workspace.mem_present.1 member).2)
    yields.apart (Workspace.applySections_present yields.applied)

/-- A section that leads to a file is present. -/
theorem mem_present_of_place? {section_ : FilePatch} (member : section_ ∈ readPatch patch)
    {place : List String} {octets : List UInt8}
    (led : simulator.workspace.place? simulator.tree section_.path = some place)
    (there : simulator.tree.fileAt? place = some octets) :
    section_ ∈ simulator.workspace.present simulator.tree (readPatch patch) := by
  rw [Workspace.mem_present, Workspace.octets?_resolve_eq_some_iff.2 ⟨place, led, there⟩]
  exact ⟨member, rfl⟩

/-- No two sections lead to one file. -/
theorem Yields.section_unique (yields : simulator.Yields patch patched) {a b : FilePatch}
    (first : a ∈ readPatch patch) (second : b ∈ readPatch patch) {place : List String}
    {octets : List UInt8} (there : simulator.tree.fileAt? place = some octets)
    (ledFirst : simulator.workspace.place? simulator.tree a.path = some place)
    (ledSecond : simulator.workspace.place? simulator.tree b.path = some place) : a = b := by
  have apart : ((simulator.workspace.present simulator.tree (readPatch patch)).map fun section_ =>
      simulator.workspace.place? simulator.tree section_.path).Nodup :=
    List.pairwise_map.2 yields.apart
  exact List.inj_on_of_nodup_map apart (mem_present_of_place? first ledFirst there)
    (mem_present_of_place? second ledSecond there) (ledFirst.trans ledSecond.symm)

/-- What becomes of a file to which a section leads. -/
theorem Yields.changes (yields : simulator.Yields patch patched) {section_ : FilePatch}
    (member : section_ ∈ readPatch patch) {place : List String} {octets : List UInt8}
    (led : simulator.workspace.place? simulator.tree section_.path = some place)
    (there : simulator.tree.fileAt? place = some octets) :
    ∃ text, simulator.change? section_ = some (FileTree.lossyTextOf octets, text) ∧
      simulator.virtualAt (readPatch patch) place = text ∧
      patched.fileAt? place = some (Text.Utf8.encode text) ∧ '\r' ∉ text := by
  obtain ⟨_, found, text, ledToo, thereToo, applied, holds⟩ :=
    yields.written.changed section_ (mem_present_of_place? member led there)
  cases led.symm.trans ledToo
  cases there.symm.trans thereToo
  have change : simulator.change? section_ = some (FileTree.lossyTextOf octets, text) :=
    change?_eq_some_iff.2 ⟨octets, Workspace.octets?_resolve_eq_some_iff.2 ⟨place, led, there⟩,
      rfl, applied⟩
  refine ⟨text, change, ?_, holds, ?_⟩
  · -- The section is the one that the virtual text is taken from.
    have found : (readPatch patch).find? (fun other =>
        decide (simulator.workspace.place? simulator.tree other.path = some place)) =
          some section_ := by
      cases search : (readPatch patch).find? fun other =>
          decide (simulator.workspace.place? simulator.tree other.path = some place) with
      | none => exact absurd led (by simpa using List.find?_eq_none.1 search section_ member)
      | some other =>
          have leads := List.find?_some search
          rw [decide_eq_true_iff] at leads
          rw [yields.section_unique (List.mem_of_find?_eq_some search) member there leads led]
    rw [virtualAt, found, Option.bind_some, change]
  · exact not_mem_applyHunks (hasNoReturns_of_mem yields.free member)
      (FileTree.not_mem_lossyTextOf octets) applied

/-- The virtual text of a file to which no section leads is the text that it has. -/
theorem virtualAt_of_free {place : List String} (free : ∀ section_ ∈ readPatch patch,
    simulator.workspace.place? simulator.tree section_.path ≠ some place) :
    simulator.virtualAt (readPatch patch) place = simulator.tree.textAt place := by
  have nothing : (readPatch patch).find? (fun section_ =>
      decide (simulator.workspace.place? simulator.tree section_.path = some place)) = none :=
    List.find?_eq_none.2 fun section_ member => by simpa using free section_ member
  rw [virtualAt, nothing, Option.bind_none]

/-- **The virtual text of a file is the text that the file has after the patch.** -/
theorem Yields.exists_file (yields : simulator.Yields patch patched) {place : List String}
    {octets : List UInt8} (there : simulator.tree.fileAt? place = some octets) :
    ∃ new, patched.fileAt? place = some new ∧
      FileTree.lossyTextOf new = simulator.virtualAt (readPatch patch) place := by
  by_cases named : ∃ section_ ∈ readPatch patch,
      simulator.workspace.place? simulator.tree section_.path = some place
  · obtain ⟨section_, member, led⟩ := named
    obtain ⟨text, -, virtual, holds, free⟩ := yields.changes member led there
    exact ⟨_, holds, by rw [FileTree.lossyTextOf_encode free, virtual]⟩
  · have free : ∀ section_ ∈ readPatch patch,
        simulator.workspace.place? simulator.tree section_.path ≠ some place :=
      fun section_ member led => named ⟨section_, member, led⟩
    refine ⟨octets, ?_, ?_⟩
    · rw [yields.written.others place fun section_ member =>
        free section_ (Workspace.mem_present.1 member).1, there]
    · rw [virtualAt_of_free free, FileTree.textAt_eq there]

/-- What strict validation of the patched files asks of a target, with the snapshot of the virtual
texts. -/
theorem Yields.check_passed_iff (yields : simulator.Yields patch patched) (parser : SourceParser)
    (nonempty : ∀ content, contentHash parser.settings content ≠ "")
    {places : List (List String)} {place : List String} {octets : List UInt8} {target : Target}
    (listed : simulator.workspace.listed? places target.filePath = some place)
    (led : simulator.workspace.place? simulator.tree target.filePath = some place)
    (there : simulator.tree.fileAt? place = some octets) (matrixId : String) :
    (Validator.check ⟨simulator.workspace, patched,
        some (Snapshot.ofFiles parser (simulator.virtualAt (readPatch patch)) places), true⟩
        matrixId target).passed = true ↔
      (∃ line ∈ (simulator.virtualAt (readPatch patch) place).lines,
          target.expectedTag.toList <:+: line) ∧
        (parser.parse (simulator.virtualAt (readPatch patch) place)
          (spelling place)).OwnMeets target := by
  obtain ⟨new, holds, text⟩ := yields.exists_file there
  have file := Workspace.octets?_resolve_eq_some_iff.2
    ⟨place, (yields.written.place?_eq _).trans led, holds⟩
  exact check_passed_iff_ownMeets nonempty listed file text matrixId

/-- The section that leads to a file is the only one that concerns a target there. -/
theorem Yields.alone (yields : simulator.Yields patch patched) {store : Store}
    {places : List (List String)} (proper : ∀ place ∈ places, ∀ name ∈ place, Path.IsName name)
    {pair : Link × Target} {place : List String} {octets : List UInt8}
    (listed : simulator.workspace.listed? places pair.2.filePath = some place)
    (there : simulator.tree.fileAt? place = some octets) {section_ other : FilePatch}
    (member : section_ ∈ readPatch patch)
    (led : simulator.workspace.place? simulator.tree section_.path = some place)
    (otherMember : other ∈ readPatch patch)
    (concerned : pair ∈ simulator.concerned store other) : other = section_ := by
  obtain ⟨file, -, same⟩ := mem_concerned.1 concerned
  obtain ⟨_, file⟩ := Option.isSome_iff_exists.1 file
  exact yields.section_unique otherMember member there
    (Workspace.place?_of_listed proper listed same file).1 led

theorem parse_eq_of_builtIn {choice : ParserChoice} {settings : FingerprintSettings}
    (builtIn : simulator.parser = choice.toParser) (settled : choice.settings = .ok settings)
    (content : Text) (path : String) : simulator.parser.parse content path =
      .ok ((choice.sourceParser settings).parse content path) := by
  rw [builtIn]
  exact ParserChoice.parse_eq settled content path

/-- A run of the patch succeeds, whatever the store. -/
theorem Yields.exists_run (yields : simulator.Yields patch patched) {parse : Text → String → Node}
    (total : ∀ content path, simulator.parser.parse content path = .ok (parse content path))
    (store : Store) : ∃ result, simulator.run store patch = .ok result := by
  refine Simulator.exists_run total fun section_ member concerns => ?_
  obtain ⟨pair, concerned⟩ := List.exists_mem_of_ne_nil _ concerns
  obtain ⟨octets, file⟩ := Option.isSome_iff_exists.1 (mem_concerned.1 concerned).1
  obtain ⟨place, led, there⟩ := Workspace.octets?_resolve_eq_some_iff.1 file
  obtain ⟨_, change, -⟩ := yields.changes member led there
  simp [change]

/-- **A simulation foretells the strict validation**, with the built-in parser and fingerprints that
are not empty.  Let the snapshot before a patch have a node for each file of the workspace, and the
snapshot after it the same with the patched texts.  For a target on a patched file, in which no
callable has the name of a type before or after, that passes before: a run reports a violation for
it exactly when it fails afterwards.  That the target is on the file of a section is said of the
spellings; of where they lead it says the same (`Workspace.sameFile_iff_place?`). -/
theorem run_iff_check_fails {choice : ParserChoice} {settings : FingerprintSettings}
    {store : Store} {places : List (List String)} {pair : Link × Target} {section_ : FilePatch}
    (builtIn : simulator.parser = choice.toParser) (settled : choice.settings = .ok settings)
    (nonempty : ∀ content, contentHash settings content ≠ "")
    (carried : simulator.CarriesOut patch patched)
    (every : ∀ place, place ∈ places ↔ simulator.workspace.HoldsFile simulator.tree place)
    (among : pair ∈ store.targets) (member : section_ ∈ readPatch patch)
    (same : simulator.workspace.sameFile pair.2.filePath section_.path = true)
    (apart : ∀ place, simulator.workspace.place? simulator.tree section_.path = some place →
      ((choice.sourceParser settings).parse (simulator.tree.textAt place)
          (spelling place)).NamesApart ∧
        ((choice.sourceParser settings).parse (simulator.virtualAt (readPatch patch) place)
          (spelling place)).NamesApart)
    (passes : (Validator.check ⟨simulator.workspace, simulator.tree,
      some (Snapshot.ofFiles (choice.sourceParser settings) simulator.tree.textAt places), true⟩
      pair.1.matrixId pair.2).passed = true) :
    ∃ result, simulator.run store patch = .ok result ∧
      ((∃ violation ∈ result.violations,
          violation.matrixId = pair.1.matrixId ∧ violation.target = pair.2) ↔
        (Validator.check ⟨simulator.workspace, patched,
          some (Snapshot.ofFiles (choice.sourceParser settings)
            (simulator.virtualAt (readPatch patch)) places), true⟩
          pair.1.matrixId pair.2).passed = false) := by
  have total := parse_eq_of_builtIn builtIn settled
  have proper : ∀ place ∈ places, ∀ name ∈ place, Path.IsName name :=
    fun place listed => ((every place).1 listed).named
  -- The place of the file, and what lies there before and after.
  obtain ⟨place, octets, listed, ledTarget, there, current⟩ :=
    exists_listed_of_passed proper passes
  obtain ⟨_, sectionFile⟩ := Option.isSome_iff_exists.1 (carried.files section_ member)
  obtain ⟨led, -, sameName⟩ := Workspace.place?_of_listed proper listed same sectionFile
  obtain ⟨text, change, virtual, -, -⟩ := carried.yields.changes member led there
  obtain ⟨apartBefore, apartAfter⟩ := apart place led
  -- What the validation finds.
  have file := Workspace.octets?_resolve_eq_some_iff.2 ⟨place, ledTarget, there⟩
  obtain ⟨found, met⟩ := (check_passed_iff_ownMeets nonempty listed file current _).1 passes
  rw [Node.ownMeets_iff_meets rfl apartBefore, ← current, ← meets_congr sameName] at met
  have after := carried.yields.check_passed_iff (choice.sourceParser settings) nonempty listed
    ledTarget there pair.1.matrixId
  rw [Node.ownMeets_iff_meets rfl apartAfter, virtual] at after
  -- What the simulation finds.
  have construct : simulator.constructUnder (choice.sourceParser settings).parse section_ pair =
      none ↔ ((choice.sourceParser settings).parse text (spelling place)).Meets pair.2 := by
    rw [constructUnder, change, Option.bind_some, constructBreach_eq_none_iff,
      keepsConstruct_iff_meets met, meets_congr sameName]
  have tag : simulator.tagUnder section_ pair = none ↔
      ∃ line ∈ text.lines, pair.2.expectedTag.toList <:+: line := by
    rw [tagUnder, change, Option.bind_some, tagBreach_eq_none_iff, keepsTag_iff_exists_line found]
  have concerned : pair ∈ simulator.concerned store section_ :=
    mem_concerned.2 ⟨carried.files section_ member, among, same⟩
  obtain ⟨result, ran⟩ := carried.yields.exists_run total store
  refine ⟨result, ran, ?_⟩
  rw [exists_violation_iff_of_alone total ran member among fun other =>
      carried.yields.alone proper listed there member led,
    construct, tag, ← Bool.not_eq_true, after]
  exact ⟨fun broken holds => broken.2 holds.symm,
    fun broken => ⟨concerned, fun holds => broken holds.symm⟩⟩

/-- A target whose expected fingerprint is that of a function that returns 1. -/
def returnTarget : Target := ⟨"f.py", .python, "# R1", some "g", some "07e5672c96ab27d1", []⟩

def returnLink : Link := ⟨"M", .oneToOne, ["R1"], [returnTarget], .valid, none, []⟩

def returnStore : Store := ⟨"1.0", [returnLink], ⟨[], [], []⟩, []⟩

/-- A workspace with the file of that function. -/
def returnSimulator : Simulator where
  workspace := ⟨⟨.root, ["w"]⟩, []⟩
  tree := { entries := [(["w"], .directory),
    (["w", "f.py"], .file (Text.Utf8.encode "# R1\ndef g():\n    return 1\n".toList))] }
  parser := ParserChoice.toParser {}
  mode := .anchored

/-- A patch that makes the function return 2. -/
def returnPatch : Text := "+++ b/f.py\n@@ -3 +3 @@\n-    return 1\n+    return 2\n".toList

def returnSection : FilePatch :=
  ⟨"f.py", [⟨"@@ -3 +3 @@".toList, some ⟨3, 1, 3, 1⟩,
    ["-    return 1".toList, "+    return 2".toList], []⟩]⟩

theorem readPatch_returnPatch : readPatch returnPatch = [returnSection] := by decide +kernel

/-- The workspace after the patch. -/
def returnPatched : FileTree :=
  { entries := [(["w"], .directory),
    (["w", "f.py"], .file (Text.Utf8.encode "# R1\ndef g():\n    return 2\n".toList))] }

theorem returnSimulator_carriesOut : returnSimulator.CarriesOut returnPatch returnPatched where
  free := by decide +kernel
  files := by
    rw [readPatch_returnPatch]
    decide +kernel
  apart := by
    rw [readPatch_returnPatch]
    exact List.pairwise_singleton _ _
  applied := Workspace.applySections_eq_ok (by decide +kernel)

/-- The places of the files of a workspace with one file, whatever is in it. -/
theorem holdsFile_of_single (octets : List UInt8) (place : List String) :
    place ∈ [["w", "f.py"]] ↔ Workspace.HoldsFile ⟨⟨.root, ["w"]⟩, []⟩
      { entries := [(["w"], .directory), (["w", "f.py"], .file octets)] } place := by
  constructor
  · intro member
    rw [List.mem_singleton] at member
    subst member
    refine ⟨by decide +kernel, fun name member => ?_, rfl⟩
    simp only [List.mem_cons, List.not_mem_nil, or_false] at member
    rcases member with rfl | rfl
    · exact ⟨by decide, by decide, by decide, by decide⟩
    · exact ⟨by decide, by decide, by decide, by decide⟩
  · intro holds
    obtain ⟨found, member⟩ := holds.mem_entries
    simp only [List.mem_cons, Prod.mk.injEq, reduceCtorEq, and_false, List.not_mem_nil, or_false,
      false_or] at member
    exact List.mem_singleton.2 member.1

theorem returnSimulator_holdsFile (place : List String) :
    place ∈ [["w", "f.py"]] ↔
      returnSimulator.workspace.HoldsFile returnSimulator.tree place :=
  holdsFile_of_single _ place

theorem returnTarget_passes : (Validator.check ⟨returnSimulator.workspace, returnSimulator.tree,
    some (Snapshot.ofFiles (ParserChoice.sourceParser {} {}) returnSimulator.tree.textAt
      [["w", "f.py"]]), true⟩ "M" returnTarget).passed = true := by
  decide +kernel

/-- A run reports the function whose result was changed. -/
theorem run_reports_changed_result :
    ∃ result, returnSimulator.run returnStore returnPatch = .ok result ∧
      ∃ violation ∈ result.violations,
        violation.matrixId = "M" ∧ violation.target = returnTarget := by
  have settled : ParserChoice.settings {} = .ok {} := rfl
  have among : (returnLink, returnTarget) ∈ returnStore.targets := List.mem_singleton.2 rfl
  have member : returnSection ∈ readPatch returnPatch := by
    rw [readPatch_returnPatch]
    exact List.mem_singleton.2 rfl
  have apart : ∀ place, returnSimulator.workspace.place? returnSimulator.tree returnSection.path =
      some place → place = ["w", "f.py"] := by
    have led : returnSimulator.workspace.place? returnSimulator.tree returnSection.path =
      some ["w", "f.py"] := by decide +kernel
    intro place ledToo
    exact Option.some.inj (ledToo.symm.trans led)
  obtain ⟨result, ran, foretold⟩ := run_iff_check_fails rfl settled
    (fun content => (contentHash_ne_empty_iff _ content).2 (by decide)) returnSimulator_carriesOut
    returnSimulator_holdsFile among member (by decide +kernel)
    (fun place led => by
      rw [apart place led]
      decide +kernel)
    returnTarget_passes
  exact ⟨result, ran, foretold.2 (by decide +kernel)⟩

end Simulator

end Traceability
