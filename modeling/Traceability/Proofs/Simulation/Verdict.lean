/-
# Traceability.Proofs.Simulation.Verdict -- the verdict of a simulation is exact

`Keeps` says what a patch has to keep for a target: its tag, its construct, and
the construct's fingerprint where that was the expected one before.  A run with
a parser that reads every text finds a patch safe exactly when every section
keeps every target that names its file (`run_verdict`).

What a run reports is put together from sections, links and targets
(`run_ok`): for each of them at most one breach of the construct and at
most one of the tag, in the order of the patch and of the store.
-/
import Traceability.Simulation
import Traceability.Proofs.Text.Occurrence
import Traceability.Proofs.Snapshot.Search

namespace Traceability

set_option autoImplicit false

/-! ## What a patch has to keep -/

/-- The construct of a target is still there, and has the expected fingerprint if it had it. -/
structure KeepsConstruct (before after : Node) (target : Target) : Prop where
  declared : ∀ name, target.construct? = some name → after.Declares name
  unchanged : ∀ name expected, target.construct? = some name →
    target.expectedFingerprint = some expected → expected ≠ "" →
    (before.findConstruct? name).bind (·.fingerprint) = some expected →
    (after.findConstruct? name).bind (·.fingerprint) = some expected

/-- The tag of a target stands in a text. -/
def KeepsTag (text : Text) (target : Target) : Prop := target.expectedTag.toList <:+: text

/-- What a patch has to keep for a target, given the structures of the file and the patched text. -/
structure Keeps (before after : Node) (patched : Text) (target : Target) : Prop where
  tag : KeepsTag patched target
  construct : KeepsConstruct before after target

/-- What becomes of the construct of a target. -/
def constructBreach (before after : Node) (target : Target) : Option ViolationKind :=
  match target.construct? with
  | none => none
  | some name =>
      match after.findConstruct? name with
      | none => some .constructMissing
      | some construct =>
          match target.expectedFingerprint.filter (· != "") with
          | none => none
          | some expected =>
              if construct.fingerprint ≠ some expected ∧
                  (before.findConstruct? name).bind (·.fingerprint) = some expected then
                some .logicDrift
              else none

/-- What becomes of the tag of a target. -/
def tagBreach (patched : Text) (target : Target) : Option ViolationKind :=
  if Text.occursIn target.expectedTag.toList patched then none else some .tagRemoved

/-- The violation of a kind that concerns a link and a target. -/
def blame (pair : Link × Target) (kind : ViolationKind) : Violation :=
  ⟨kind, pair.1.matrixId, pair.2⟩

theorem constructBreach_kind {before after : Node} {target : Target} {kind : ViolationKind}
    (breach : constructBreach before after target = some kind) :
    kind = .constructMissing ∨ kind = .logicDrift := by
  unfold constructBreach at breach
  split at breach
  · cases breach
  · split at breach
    · cases breach
      exact Or.inl rfl
    · split at breach
      · cases breach
      · split at breach
        · cases breach
          exact Or.inr rfl
        · cases breach

theorem tagBreach_kind {patched : Text} {target : Target} {kind : ViolationKind}
    (breach : tagBreach patched target = some kind) : kind = .tagRemoved := by
  unfold tagBreach at breach
  split at breach
  · cases breach
  · cases breach
    rfl

theorem constructBreach_eq_none_iff (before after : Node) (target : Target) :
    constructBreach before after target = none ↔ KeepsConstruct before after target := by
  unfold constructBreach
  -- The cases follow the checks: no construct named, construct gone, nothing expected, compared.
  split
  · rename_i unnamed
    refine ⟨fun _ => ⟨fun name named => ?_, fun name _ named => ?_⟩, fun _ => rfl⟩
    · simp [unnamed] at named
    · simp [unnamed] at named
  · rename_i name named
    split
    · rename_i gone
      refine ⟨nofun, fun keeps => ?_⟩
      exact absurd gone ((Node.findConstruct?_ne_none_iff name after).2 (keeps.declared name named))
    · rename_i construct found
      have declared : ∀ other, target.construct? = some other → after.Declares other := by
        intro other same
        cases named.symm.trans same
        exact (Node.findConstruct?_ne_none_iff name after).1 (by simp [found])
      split
      · rename_i unexpected
        refine ⟨fun _ => ⟨declared, fun _ expected _ given nonempty => ?_⟩, fun _ => rfl⟩
        simp [given, nonempty] at unexpected
      · rename_i expected filtered
        obtain ⟨given, nonempty⟩ := Option.filter_eq_some_iff.1 filtered
        simp only [bne_iff_ne, ne_eq] at nonempty
        constructor
        · intro noBreach
          refine ⟨declared, fun other wanted same givenToo _ had => ?_⟩
          cases named.symm.trans same
          cases given.symm.trans givenToo
          rw [found, Option.bind_some]
          refine Decidable.byContradiction fun changed => ?_
          rw [if_pos ⟨changed, had⟩] at noBreach
          cases noBreach
        · intro keeps
          rw [if_neg]
          rintro ⟨changed, had⟩
          have same := keeps.unchanged name expected named given nonempty had
          rw [found, Option.bind_some] at same
          exact changed same

theorem tagBreach_eq_none_iff (patched : Text) (target : Target) :
    tagBreach patched target = none ↔ KeepsTag patched target := by
  rw [KeepsTag, ← Text.occursIn_iff, tagBreach]
  split
  · rename_i occurs
    exact ⟨fun _ => occurs, fun _ => rfl⟩
  · rename_i missing
    exact ⟨nofun, fun occurs => absurd occurs missing⟩

/-- With the structure of the file before the patch at hand, the check of a construct gives its
breach. -/
theorem constructViolation_ok (before after : Node) (pair : Link × Target) :
    Simulator.constructViolation (.ok before) after pair =
      .ok ((constructBreach before after pair.2).map (blame pair)) := by
  obtain ⟨link, target⟩ := pair
  simp only [Simulator.constructViolation, constructBreach]
  cases target.construct? with
  | none => rfl
  | some name =>
      cases found : after.findConstruct? name with
      | none => simp only [found]; rfl
      | some construct =>
          cases filtered : target.expectedFingerprint.filter (· != "") with
          | none => simp only [found]; rfl
          | some expected =>
              by_cases same : construct.fingerprint = some expected
              · simp only [found, same, if_true, ne_eq, not_true_eq_false, false_and, if_false]
                rfl
              · cases had : before.findConstruct? name with
                | none =>
                    simp only [found, same, if_false, had, Option.bind_none, reduceCtorEq,
                      and_false, bind, Except.bind]
                    rfl
                | some old =>
                    simp only [found, same, if_false, had, Option.bind_some, ne_eq,
                      not_false_eq_true, true_and, bind, Except.bind]
                    split <;> rfl

theorem tagViolation_eq (patched : Text) (pair : Link × Target) :
    Simulator.tagViolation patched pair = (tagBreach patched pair.2).map (blame pair) := by
  unfold Simulator.tagViolation tagBreach
  split <;> rfl

theorem SimulationResult.verdict_eq_safe_iff (result : SimulationResult) :
    result.verdict = "SAFE_TO_APPLY" ↔ result.violations = [] := by
  rw [SimulationResult.verdict, SimulationResult.isSafe]
  split
  · rename_i empty
    exact ⟨fun _ => List.isEmpty_iff.1 empty, fun _ => rfl⟩
  · rename_i nonempty
    refine ⟨fun same => absurd same (by decide), fun none_left => ?_⟩
    exact absurd (List.isEmpty_iff.2 none_left) nonempty

/-- When a list of fallible steps succeeds, each step does, and the results are what the steps
give. -/
theorem mapM_ok {α β ε : Type} {f : α → Except ε β} {items : List α} {results : List β}
    (done : items.mapM f = .ok results) :
    (∀ item ∈ items, ∃ result, f item = .ok result) ∧
      ∀ value : α → β, (∀ item ∈ items, ∀ result, f item = .ok result → result = value item) →
        results = items.map value := by
  induction items generalizing results with
  | nil =>
      cases done
      exact ⟨fun item member => absurd member List.not_mem_nil, fun _ _ => rfl⟩
  | cons item rest ih =>
      rw [List.mapM_cons] at done
      cases first : f item with
      | error fault => rw [first] at done; cases done
      | ok result =>
          cases later : rest.mapM f with
          | error fault => rw [first, later] at done; cases done
          | ok others =>
              rw [first, later] at done
              cases done
              obtain ⟨each, results⟩ := ih later
              refine ⟨List.forall_mem_cons.2 ⟨⟨result, first⟩, each⟩, fun value agree => ?_⟩
              obtain ⟨here, rest⟩ := List.forall_mem_cons.1 agree
              rw [List.map_cons, ← here result first, ← results value rest]

theorem mapM_of_ok {α β ε : Type} {f : α → Except ε β} {value : α → β} {items : List α}
    (each : ∀ item ∈ items, f item = .ok (value item)) : items.mapM f = .ok (items.map value) := by
  induction items with
  | nil => rfl
  | cons item rest ih =>
      obtain ⟨here, later⟩ := List.forall_mem_cons.1 each
      rw [List.mapM_cons, here, ih later]
      rfl

/-! ## What a section reports -/

namespace Simulator

/-- The text of the file that a section names, before the section and after it; `none` when there
is no such file or the section conflicts with it. -/
def change? (simulator : Simulator) (section_ : FilePatch) : Option (Text × Text) :=
  (simulator.tree.octets? (simulator.workspace.resolve section_.path)).bind fun octets =>
    let current := FileTree.lossyTextOf octets
    match applyHunks simulator.mode section_.path current section_.hunks with
    | .ok patched => some (current, patched)
    | .error _ => none

/-- The links and targets that a section concerns: those that track its file, if it exists. -/
def concerned (simulator : Simulator) (store : Store) (section_ : FilePatch) :
    List (Link × Target) :=
  match simulator.tree.octets? (simulator.workspace.resolve section_.path) with
  | none => []
  | some _ => simulator.tracked store section_.path

/-- What becomes of the construct of a target under a section; `parse` gives the structure of a
text. -/
def constructUnder (simulator : Simulator) (parse : Text → String → Node) (section_ : FilePatch)
    (pair : Link × Target) : Option ViolationKind :=
  (simulator.change? section_).bind fun (current, patched) =>
    let path := (simulator.workspace.resolve section_.path).toString
    constructBreach (parse current path) (parse patched path) pair.2

/-- What becomes of the tag of a target under a section. -/
def tagUnder (simulator : Simulator) (section_ : FilePatch) (pair : Link × Target) :
    Option ViolationKind :=
  (simulator.change? section_).bind fun (_, patched) => tagBreach patched pair.2

/-- The violations that a function finds among links and targets. -/
def reported (breach : Link × Target → Option ViolationKind) (pairs : List (Link × Target)) :
    List Violation :=
  pairs.filterMap fun pair => (breach pair).map (blame pair)

theorem mem_concerned {simulator : Simulator} {store : Store} {section_ : FilePatch}
    {pair : Link × Target} :
    pair ∈ simulator.concerned store section_ ↔
      (simulator.tree.octets? (simulator.workspace.resolve section_.path)).isSome ∧
        pair ∈ store.targets ∧
        simulator.workspace.sameFile pair.2.filePath section_.path = true := by
  unfold concerned tracked
  split
  · rename_i missing
    simp [missing]
  · rename_i octets exists_
    simp [exists_]

variable {simulator : Simulator} {parse : Text → String → Node}

theorem checkContent_eq
    (total : ∀ content path, simulator.parser.parse content path = .ok (parse content path))
    {section_ : FilePatch} {octets : List UInt8} {patched : Text}
    (applied : applyHunks simulator.mode section_.path (FileTree.lossyTextOf octets)
      section_.hunks = .ok patched) (path : Path) (pairs : List (Link × Target)) :
    simulator.checkContent section_ path pairs octets =
      .ok (reported (fun pair => constructBreach (parse (FileTree.lossyTextOf octets) path.toString)
          (parse patched path.toString) pair.2) pairs ++
        reported (fun pair => tagBreach patched pair.2) pairs) := by
  have checked := mapM_of_ok fun pair (_ : pair ∈ pairs) =>
    constructViolation_ok (parse (FileTree.lossyTextOf octets) path.toString)
      (parse patched path.toString) pair
  have tags : Simulator.tagViolation patched =
      fun pair => (tagBreach patched pair.2).map (blame pair) :=
    funext fun pair => tagViolation_eq patched pair
  have made : (applyHunks simulator.mode section_.path (FileTree.lossyTextOf octets)
      section_.hunks).mapError Failure.conflict = .ok patched := by
    rw [applied]
    rfl
  simp only [checkContent, made, total, checked, bind, Except.bind, pure,
    Except.pure, List.filterMap_map, tags]
  rfl

theorem change?_eq_some_iff {section_ : FilePatch} {current patched : Text} :
    simulator.change? section_ = some (current, patched) ↔
      ∃ octets, simulator.tree.octets? (simulator.workspace.resolve section_.path) = some octets ∧
        current = FileTree.lossyTextOf octets ∧
        applyHunks simulator.mode section_.path current section_.hunks = .ok patched := by
  rw [change?, Option.bind_eq_some_iff]
  refine exists_congr fun octets => and_congr_right fun _ => ?_
  constructor
  · intro changed
    cases applied : applyHunks simulator.mode section_.path (FileTree.lossyTextOf octets)
        section_.hunks with
    | error conflict =>
        simp only [applied] at changed
        cases changed
    | ok text =>
        simp only [applied] at changed
        cases changed
        exact ⟨rfl, applied⟩
  · rintro ⟨rfl, applied⟩
    simp only [applied]

/-- A section whose change can be made reports each construct and each tag that it breaks. -/
theorem checkFile_eq
    (total : ∀ content path, simulator.parser.parse content path = .ok (parse content path))
    (store : Store) {section_ : FilePatch} (changed : simulator.change? section_ ≠ none) :
    simulator.checkFile store section_ =
      .ok (reported (simulator.constructUnder parse section_)
          (simulator.concerned store section_) ++
        reported (simulator.tagUnder section_) (simulator.concerned store section_)) := by
  obtain ⟨⟨current, patched⟩, change⟩ := Option.ne_none_iff_exists'.1 changed
  obtain ⟨octets, file, rfl, applied⟩ := change?_eq_some_iff.1 change
  have construct : simulator.constructUnder parse section_ = fun pair =>
      constructBreach
        (parse (FileTree.lossyTextOf octets)
          (simulator.workspace.resolve section_.path).toString)
        (parse patched (simulator.workspace.resolve section_.path).toString) pair.2 := by
    funext pair
    simp only [constructUnder, change, Option.bind_some]
  have tag : simulator.tagUnder section_ = fun pair => tagBreach patched pair.2 := by
    funext pair
    simp only [tagUnder, change, Option.bind_some]
  unfold checkFile concerned
  simp only [file, construct, tag]
  cases simulator.tracked store section_.path with
  | nil => rfl
  | cons pair others => exact checkContent_eq total applied _ _

/-- A section that is checked without failure and concerns a target can be carried out. -/
theorem change?_ne_none_of_checkFile {store : Store} {section_ : FilePatch}
    {violations : List Violation} (done : simulator.checkFile store section_ = .ok violations)
    (concerns : simulator.concerned store section_ ≠ []) : simulator.change? section_ ≠ none := by
  unfold checkFile at done
  unfold concerned at concerns
  cases file : simulator.tree.octets? (simulator.workspace.resolve section_.path) with
  | none => simp only [file, ne_eq, not_true_eq_false] at concerns
  | some octets =>
      cases applied : applyHunks simulator.mode section_.path (FileTree.lossyTextOf octets)
          section_.hunks with
      | ok patched => simp [change?_eq_some_iff.2 ⟨octets, file, rfl, applied⟩]
      | error conflict =>
          simp only [file] at done concerns
          cases tracks : simulator.tracked store section_.path with
          | nil => exact absurd tracks concerns
          | cons pair others =>
              have refused : (applyHunks simulator.mode section_.path
                  (FileTree.lossyTextOf octets) section_.hunks).mapError Failure.conflict =
                  .error (.conflict conflict) := by
                rw [applied]
                rfl
              simp only [tracks, checkContent, refused, bind, Except.bind] at done
              cases done

/-- A section that concerns nobody reports nothing, be it for want of the file or of targets. -/
theorem checkFile_of_nobody {store : Store} {section_ : FilePatch}
    (nobody : simulator.concerned store section_ = []) :
    simulator.checkFile store section_ = .ok [] := by
  unfold concerned at nobody
  unfold checkFile
  cases file : simulator.tree.octets? (simulator.workspace.resolve section_.path) with
  | none => simp only [file]
  | some octets =>
      simp only [file] at nobody
      simp only [file, nobody]

theorem checkFile_ok
    (total : ∀ content path, simulator.parser.parse content path = .ok (parse content path))
    {store : Store} {section_ : FilePatch} {violations : List Violation}
    (done : simulator.checkFile store section_ = .ok violations) :
    violations =
      reported (simulator.constructUnder parse section_) (simulator.concerned store section_) ++
        reported (simulator.tagUnder section_) (simulator.concerned store section_) := by
  by_cases nobody : simulator.concerned store section_ = []
  · rw [checkFile_of_nobody nobody] at done
    cases done
    rw [nobody]
    rfl
  · have changed := change?_ne_none_of_checkFile done nobody
    rw [checkFile_eq total store changed] at done
    exact (Except.ok.inj done).symm

theorem run_ok {store : Store} {patch : Text} {result : SimulationResult}
    (total : ∀ content path, simulator.parser.parse content path = .ok (parse content path))
    (ran : simulator.run store patch = .ok result) :
    (∀ section_ ∈ readPatch patch, simulator.concerned store section_ ≠ [] →
        simulator.change? section_ ≠ none) ∧
      result.violations = (readPatch patch).flatMap fun section_ =>
        reported (simulator.constructUnder parse section_) (simulator.concerned store section_) ++
          reported (simulator.tagUnder section_) (simulator.concerned store section_) := by
  unfold run at ran
  cases checked : (readPatch patch).mapM (simulator.checkFile store) with
  | error fault =>
      rw [checked] at ran
      cases ran
  | ok lists =>
      rw [checked] at ran
      cases ran
      obtain ⟨each, results⟩ := mapM_ok checked
      refine ⟨fun section_ member => ?_, ?_⟩
      · obtain ⟨violations, done⟩ := each section_ member
        exact change?_ne_none_of_checkFile done
      · rw [results _ fun section_ _ violations done => checkFile_ok total done,
          List.flatMap_def]

/-- A run with a verdict succeeds. -/
theorem exists_run_of_verdict {store : Store} {patch : Text} {verdict : String}
    (judged : (simulator.run store patch).toOption.map SimulationResult.verdict = some verdict) :
    ∃ result, simulator.run store patch = .ok result ∧ result.verdict = verdict := by
  cases ran : simulator.run store patch with
  | error fault =>
      rw [ran] at judged
      cases judged
  | ok result =>
      rw [ran] at judged
      exact ⟨result, rfl, Option.some.inj judged⟩

theorem reported_eq_nil_iff (breach : Link × Target → Option ViolationKind)
    (pairs : List (Link × Target)) :
    reported breach pairs = [] ↔ ∀ pair ∈ pairs, breach pair = none := by
  rw [reported, List.filterMap_eq_nil_iff]
  simp only [Option.map_eq_none_iff]

/-- A section breaks nothing of a target exactly when its change can be made and keeps it. -/
theorem breaks_nothing_iff {section_ : FilePatch} {pair : Link × Target} {octets : List UInt8}
    (file : simulator.tree.octets? (simulator.workspace.resolve section_.path) = some octets)
    (changed : simulator.change? section_ ≠ none) :
    (simulator.constructUnder parse section_ pair = none ∧
        simulator.tagUnder section_ pair = none) ↔
      ∃ patched, applyHunks simulator.mode section_.path (FileTree.lossyTextOf octets)
          section_.hunks = .ok patched ∧
        Keeps
          (parse (FileTree.lossyTextOf octets)
            (simulator.workspace.resolve section_.path).toString)
          (parse patched (simulator.workspace.resolve section_.path).toString) patched pair.2 := by
  cases applied : applyHunks simulator.mode section_.path (FileTree.lossyTextOf octets)
      section_.hunks with
  | error conflict => simp [change?, file, applied] at changed
  | ok patched =>
      have change := change?_eq_some_iff.2 ⟨octets, file, rfl, applied⟩
      simp only [constructUnder, tagUnder, change, Option.bind_some, constructBreach_eq_none_iff,
        tagBreach_eq_none_iff, Except.ok.injEq, exists_eq_left']
      exact ⟨fun both => ⟨both.2, both.1⟩, fun keeps => ⟨keeps.construct, keeps.tag⟩⟩

/-- **The verdict is exact**, for every parser that gives a structure for every text.  A patch is
safe exactly when each of its sections on an existing file keeps every target that names the file.
And what a run reports comes from these sections, links and targets alone, for each at most one
breach of the construct and at most one of the tag. -/
theorem run_verdict {store : Store} {patch : Text} {result : SimulationResult}
    (total : ∀ content path, simulator.parser.parse content path = .ok (parse content path))
    (ran : simulator.run store patch = .ok result) :
    (result.verdict = "SAFE_TO_APPLY" ↔
      ∀ section_ ∈ readPatch patch, ∀ octets,
        simulator.tree.octets? (simulator.workspace.resolve section_.path) = some octets →
        ∀ pair ∈ store.targets,
          simulator.workspace.sameFile pair.2.filePath section_.path = true →
          ∃ patched, applyHunks simulator.mode section_.path (FileTree.lossyTextOf octets)
              section_.hunks = .ok patched ∧
            Keeps
              (parse (FileTree.lossyTextOf octets)
                (simulator.workspace.resolve section_.path).toString)
              (parse patched (simulator.workspace.resolve section_.path).toString)
              patched pair.2) ∧
      ∃ construct tag : FilePatch → Link × Target → Option ViolationKind,
        (∀ section_ pair kind, construct section_ pair = some kind →
          kind = .constructMissing ∨ kind = .logicDrift) ∧
        (∀ section_ pair kind, tag section_ pair = some kind → kind = .tagRemoved) ∧
        result.violations = (readPatch patch).flatMap fun section_ =>
          reported (construct section_) (simulator.concerned store section_) ++
            reported (tag section_) (simulator.concerned store section_) := by
  obtain ⟨possible, violations⟩ := run_ok total ran
  refine ⟨?_, simulator.constructUnder parse, simulator.tagUnder, ?_, ?_, violations⟩
  · rw [SimulationResult.verdict_eq_safe_iff, violations, List.flatMap_eq_nil_iff]
    simp only [List.append_eq_nil_iff, reported_eq_nil_iff]
    constructor
    · intro silent section_ member octets file pair among same
      have concerned : pair ∈ simulator.concerned store section_ :=
        mem_concerned.2 ⟨by rw [file]; rfl, among, same⟩
      have changed := possible section_ member (List.ne_nil_of_mem concerned)
      obtain ⟨constructs, tags⟩ := silent section_ member
      exact (breaks_nothing_iff file changed).1 ⟨constructs pair concerned, tags pair concerned⟩
    · intro keeps section_ member
      have nothing : ∀ pair ∈ simulator.concerned store section_,
          simulator.constructUnder parse section_ pair = none ∧
            simulator.tagUnder section_ pair = none := by
        intro pair concerned
        obtain ⟨exists_, among, same⟩ := mem_concerned.1 concerned
        obtain ⟨octets, file⟩ := Option.isSome_iff_exists.1 exists_
        have changed := possible section_ member (List.ne_nil_of_mem concerned)
        exact (breaks_nothing_iff file changed).2 (keeps section_ member octets file pair among same)
      exact ⟨fun pair concerned => (nothing pair concerned).1,
        fun pair concerned => (nothing pair concerned).2⟩
  · intro section_ pair kind breach
    obtain ⟨change, -, found⟩ := Option.bind_eq_some_iff.1 breach
    exact constructBreach_kind found
  · intro section_ pair kind breach
    obtain ⟨change, -, found⟩ := Option.bind_eq_some_iff.1 breach
    exact tagBreach_kind found

/-- A structure with one construct, whose fingerprint is the first line of the text. -/
def firstLineParse (content : Text) (path : String) : Node :=
  ⟨path, path, [⟨"g", .callable, content.lines.head?.map String.ofList⟩], [], []⟩

/-- A target that expects its tag and its fingerprint in the first line. -/
def firstLineTarget : Target := ⟨"./f", .python, "a", some "g", some "a", []⟩

/-- A store with one link to that target. -/
def firstLineStore : Store :=
  ⟨"1.0", [⟨"M", .oneToOne, ["S"], [firstLineTarget], .valid, none, []⟩], ⟨[], [], []⟩, []⟩

/-- A workspace with one file, of the lines `a` and `b`. -/
def firstLineSimulator : Simulator where
  workspace := ⟨⟨.root, ["w"]⟩, []⟩
  tree := { entries := [(["w"], .directory), (["w", "f"], .file [97, 10, 98, 10])] }
  parser := ⟨fun content path => .ok (firstLineParse content path), fun _ _ => none⟩
  mode := .anchored

/-- A patch of the second line of a file keeps what lies in the first. -/
theorem run_verdict_second_line :
    ∃ patched, applyHunks .anchored "f" (FileTree.lossyTextOf [97, 10, 98, 10])
        [⟨"@@ -2 +2 @@".toList, some ⟨2, 1, 2, 1⟩, ["-b".toList, "+c".toList], []⟩] = .ok patched ∧
      Keeps (firstLineParse (FileTree.lossyTextOf [97, 10, 98, 10])
          (firstLineSimulator.workspace.resolve "f").toString)
        (firstLineParse patched (firstLineSimulator.workspace.resolve "f").toString)
        patched firstLineTarget := by
  have verdict : ((firstLineSimulator.run firstLineStore
      "+++ b/f\n@@ -2 +2 @@\n-b\n+c\n".toList).toOption.map SimulationResult.verdict) =
        some "SAFE_TO_APPLY" := by decide +kernel
  have sections : readPatch "+++ b/f\n@@ -2 +2 @@\n-b\n+c\n".toList =
      [⟨"f", [⟨"@@ -2 +2 @@".toList, some ⟨2, 1, 2, 1⟩, ["-b".toList, "+c".toList], []⟩]⟩] := by
    decide +kernel
  cases ran : firstLineSimulator.run firstLineStore "+++ b/f\n@@ -2 +2 @@\n-b\n+c\n".toList with
  | error fault =>
      rw [ran] at verdict
      cases verdict
  | ok result =>
      rw [ran] at verdict
      have safe := (run_verdict (fun _ _ => rfl) ran).1.1 (Option.some.inj verdict)
      rw [sections] at safe
      exact safe _ (List.mem_singleton.2 rfl) [97, 10, 98, 10] (by decide +kernel) _
        (List.mem_singleton.2 rfl) (by decide +kernel)

end Simulator

end Traceability
