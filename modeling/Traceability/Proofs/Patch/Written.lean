/-
# Traceability.Proofs.Patch.Written -- a patch carried out on the files of a tree

`applySections` writes the sections of a patch to their files, one after the
other.  `Written` says what the tree has become when no two sections name one
file: every path leads where it led, each file that a section names holds the
text that the section makes of what it held before, and the other files are as
they were.  The run establishes it (`applySections_written`) because one section
does (`applySection_written`) and what two parts of a patch do can be put
together (`Written.cons`).  A section whose file does not exist does nothing, so
that only the others matter (`applySections_present`).
-/
import Traceability.Patch.Apply
import Traceability.Proofs.Fallible
import Traceability.Proofs.FileTree

namespace Traceability

set_option autoImplicit false

namespace Workspace

/-- The place to which the path of a file leads. -/
def place? (workspace : Workspace) (tree : FileTree) (file : String) : Option (List String) :=
  tree.follow [] (workspace.resolve file).names

theorem octets?_resolve (workspace : Workspace) (tree : FileTree) (file : String) :
    tree.octets? (workspace.resolve file) =
      (workspace.place? tree file).bind tree.fileAt? :=
  tree.octets?_eq (workspace.resolve file)

theorem octets?_resolve_eq_some_iff {workspace : Workspace} {tree : FileTree} {file : String}
    {octets : List UInt8} :
    tree.octets? (workspace.resolve file) = some octets ↔
      ∃ place, workspace.place? tree file = some place ∧ tree.fileAt? place = some octets := by
  rw [octets?_resolve, Option.bind_eq_some_iff]

/-- Two spellings name the same existing file when they start at the same root and lead to the same
place. -/
theorem sameFile_iff_place? {workspace : Workspace} {tree : FileTree} {a b : String}
    {here there : List String} (ledA : workspace.place? tree a = some here)
    (ledB : workspace.place? tree b = some there)
    (absolute : workspace.root.anchor ≠ .relative) :
    workspace.sameFile a b = true ↔
      (workspace.resolve a).anchor = (workspace.resolve b).anchor ∧ here = there := by
  have rooted : ∀ file, (workspace.resolve file).anchor ≠ .relative := by
    intro file
    rw [resolve, Path.join]
    split
    · rename_i given
      rwa [Path.isAbsolute, bne_iff_ne] at given
    · exact absolute
  rw [sameFile_iff, FileTree.follow_eq_normalize (rooted a) ledA,
    FileTree.follow_eq_normalize (rooted b) ledB, Path.mk.injEq]

/-- The tree after a section of a patch has been carried out; without its file nothing happens. -/
def applySection (workspace : Workspace) (mode : PatchMode) (tree : FileTree)
    (section_ : FilePatch) : Except PatchConflict FileTree :=
  let path := workspace.resolve section_.path
  match tree.octets? path with
  | none => .ok tree
  | some octets =>
      (applyHunks mode section_.path (FileTree.lossyTextOf octets) section_.hunks).map
        (tree.writeText path)

/-- The tree after the sections of a patch have been carried out in turn. -/
def applySections (workspace : Workspace) (mode : PatchMode) :
    FileTree → List FilePatch → Except PatchConflict FileTree
  | tree, [] => .ok tree
  | tree, section_ :: rest =>
      (workspace.applySection mode tree section_).bind fun next =>
        workspace.applySections mode next rest

theorem disk_of_applySection {workspace : Workspace} {mode : PatchMode} {tree next : FileTree}
    {section_ : FilePatch} (applied : workspace.applySection mode tree section_ = .ok next) :
    next.disk = tree.disk := by
  unfold applySection at applied
  simp only at applied
  split at applied
  · cases applied
    rfl
  · cases made : applyHunks mode section_.path (FileTree.lossyTextOf _) section_.hunks with
    | error conflict =>
        rw [made] at applied
        cases applied
    | ok text =>
        rw [made] at applied
        cases applied
        exact FileTree.disk_writeOctets _ _ _

theorem disk_of_applySections {workspace : Workspace} {mode : PatchMode} {tree patched : FileTree}
    {sections : List FilePatch} (applied : workspace.applySections mode tree sections = .ok patched) :
    patched.disk = tree.disk := by
  induction sections generalizing tree with
  | nil =>
      cases applied
      rfl
  | cons section_ rest ih =>
      obtain ⟨next, step, applied⟩ := bind_eq_ok_iff.1 applied
      exact (ih applied).trans (disk_of_applySection step)

/-- The entries say which tree it is. -/
theorem applySections_eq_ok {workspace : Workspace} {mode : PatchMode} {tree : FileTree}
    {sections : List FilePatch} {entries : List (List String × FileEntry)}
    (made : (workspace.applySections mode tree sections).map FileTree.entries = .ok entries) :
    workspace.applySections mode tree sections = .ok ⟨entries, tree.disk⟩ := by
  cases applied : workspace.applySections mode tree sections with
  | error conflict =>
      rw [applied] at made
      cases made
  | ok patched =>
      rw [applied] at made
      cases made
      rw [← disk_of_applySections applied]

end Workspace

/-- A tree and what the sections of a patch have made of it. -/
structure Written (workspace : Workspace) (mode : PatchMode) (sections : List FilePatch)
    (tree patched : FileTree) : Prop where
  leads : ∀ place names, patched.follow place names = tree.follow place names
  changed : ∀ section_ ∈ sections, ∃ place octets text,
    workspace.place? tree section_.path = some place ∧ tree.fileAt? place = some octets ∧
      applyHunks mode section_.path (FileTree.lossyTextOf octets) section_.hunks = .ok text ∧
      patched.fileAt? place = some (Text.Utf8.encode text)
  others : ∀ place, (∀ section_ ∈ sections, workspace.place? tree section_.path ≠ some place) →
    patched.fileAt? place = tree.fileAt? place

namespace Written

variable {workspace : Workspace} {mode : PatchMode}

theorem nil (tree : FileTree) : Written workspace mode [] tree tree :=
  ⟨fun _ _ => rfl, fun _ member => absurd member List.not_mem_nil, fun _ _ => rfl⟩

theorem place?_eq {sections : List FilePatch} {tree patched : FileTree}
    (written : Written workspace mode sections tree patched) (file : String) :
    workspace.place? patched file = workspace.place? tree file :=
  written.leads [] (workspace.resolve file).names

/-- The same paths lead to files. -/
theorem isSome_octets? {sections : List FilePatch} {tree patched : FileTree}
    (written : Written workspace mode sections tree patched) (file : String) :
    (patched.octets? (workspace.resolve file)).isSome =
      (tree.octets? (workspace.resolve file)).isSome := by
  rw [Workspace.octets?_resolve, Workspace.octets?_resolve, written.place?_eq]
  cases led : workspace.place? tree file with
  | none => rfl
  | some place =>
      rw [Option.bind_some, Option.bind_some]
      by_cases named : ∃ section_ ∈ sections, workspace.place? tree section_.path = some place
      · obtain ⟨section_, member, same⟩ := named
        obtain ⟨found, octets, text, ledToo, there, -, holds⟩ := written.changed section_ member
        cases same.symm.trans ledToo
        rw [there, holds]
        rfl
      · rw [written.others place fun section_ member same => named ⟨section_, member, same⟩]

/-- A section leaves the file of another section as it was. -/
theorem untouched {section_ other : FilePatch} {tree next : FileTree} {place : List String}
    (written : Written workspace mode [section_] tree next)
    (apart : workspace.place? tree section_.path ≠ workspace.place? tree other.path)
    (led : workspace.place? tree other.path = some place) :
    next.fileAt? place = tree.fileAt? place := by
  refine written.others place fun same only => ?_
  rw [List.mem_singleton.1 only, ← led]
  exact apart

/-- A section and then other sections, none of which names the same file. -/
theorem cons {section_ : FilePatch} {rest : List FilePatch} {tree next patched : FileTree}
    (first : Written workspace mode [section_] tree next)
    (later : Written workspace mode rest next patched)
    (apart : ∀ other ∈ rest,
      workspace.place? tree section_.path ≠ workspace.place? tree other.path) :
    Written workspace mode (section_ :: rest) tree patched where
  leads place names := by rw [later.leads, first.leads]
  changed := by
    refine List.forall_mem_cons.2 ⟨?_, fun other member => ?_⟩
    · obtain ⟨place, octets, text, led, there, applied, holds⟩ :=
        first.changed section_ List.mem_cons_self
      refine ⟨place, octets, text, led, there, applied, ?_⟩
      rw [later.others place fun other member => ?_]
      · exact holds
      · rw [first.place?_eq, ← led]
        exact Ne.symm (apart other member)
    · obtain ⟨place, octets, text, led, there, applied, holds⟩ := later.changed other member
      rw [first.place?_eq] at led
      rw [first.untouched (apart other member) led] at there
      exact ⟨place, octets, text, led, there, applied, holds⟩
  others place free := by
    obtain ⟨here, elsewhere⟩ := List.forall_mem_cons.1 free
    rw [later.others place fun other member => ?_]
    · exact first.others place fun same only => List.mem_singleton.1 only ▸ here
    · rw [first.place?_eq]
      exact elsewhere other member

end Written

namespace Workspace

variable {workspace : Workspace} {mode : PatchMode}

theorem applySection_written {section_ : FilePatch} {tree next : FileTree}
    (file : (tree.octets? (workspace.resolve section_.path)).isSome = true)
    (applied : workspace.applySection mode tree section_ = .ok next) :
    Written workspace mode [section_] tree next := by
  obtain ⟨octets, there⟩ := Option.isSome_iff_exists.1 file
  unfold applySection at applied
  simp only [there] at applied
  rw [octets?_resolve] at there
  obtain ⟨place, led, there⟩ := Option.bind_eq_some_iff.1 there
  cases made : applyHunks mode section_.path (FileTree.lossyTextOf octets) section_.hunks with
  | error conflict =>
      rw [made] at applied
      cases applied
  | ok text =>
      rw [made] at applied
      cases applied
      have set : tree.writeText (workspace.resolve section_.path) text =
          tree.setEntry place (.file (Text.Utf8.encode text)) :=
        FileTree.writeOctets_eq led there _
      refine ⟨fun from_ names => ?_, fun other only => ?_, fun other free => ?_⟩
      · rw [set, FileTree.follow_setEntry there]
      · rw [List.mem_singleton.1 only]
        refine ⟨place, octets, text, led, there, made, ?_⟩
        rw [set, FileTree.fileAt?_setEntry there, if_pos rfl]
      · have apart : other ≠ place := by
          rintro rfl
          exact free section_ List.mem_cons_self led
        rw [set, FileTree.fileAt?_setEntry there, if_neg apart]

/-- **A patch of which no two sections name one file changes each file that it names as the section
says, and nothing else.** -/
theorem applySections_written {sections : List FilePatch} {tree patched : FileTree}
    (files : ∀ section_ ∈ sections,
      (tree.octets? (workspace.resolve section_.path)).isSome = true)
    (apart : sections.Pairwise fun a b =>
      workspace.place? tree a.path ≠ workspace.place? tree b.path)
    (applied : workspace.applySections mode tree sections = .ok patched) :
    Written workspace mode sections tree patched := by
  induction sections generalizing tree with
  | nil =>
      cases applied
      exact Written.nil _
  | cons section_ rest ih =>
      obtain ⟨file, otherFiles⟩ := List.forall_mem_cons.1 files
      obtain ⟨here, elsewhere⟩ := List.pairwise_cons.1 apart
      obtain ⟨next, step, applied⟩ := bind_eq_ok_iff.1 applied
      have first := applySection_written file step
      refine first.cons (ih (fun other member => ?_) ?_ applied) here
      · -- The files of the later sections are where they were.
        rw [first.isSome_octets?]
        exact otherFiles other member
      · exact elsewhere.imp fun {a b} ne => by rwa [first.place?_eq, first.place?_eq]

/-- The sections whose file is there. -/
def present (workspace : Workspace) (tree : FileTree) (sections : List FilePatch) :
    List FilePatch :=
  sections.filter fun section_ => (tree.octets? (workspace.resolve section_.path)).isSome

theorem mem_present {sections : List FilePatch} {tree : FileTree} {section_ : FilePatch} :
    section_ ∈ workspace.present tree sections ↔
      section_ ∈ sections ∧ (tree.octets? (workspace.resolve section_.path)).isSome = true :=
  List.mem_filter

theorem applySection_of_missing {section_ : FilePatch} {tree : FileTree}
    (missing : ¬(tree.octets? (workspace.resolve section_.path)).isSome = true) :
    workspace.applySection mode tree section_ = .ok tree := by
  rw [Bool.not_eq_true, Option.isSome_eq_false_iff, Option.isNone_iff_eq_none] at missing
  simp only [applySection, missing]

/-- Sections without a file do not matter. -/
theorem applySections_present {sections : List FilePatch} {tree patched : FileTree}
    (applied : workspace.applySections mode tree sections = .ok patched) :
    workspace.applySections mode tree (workspace.present tree sections) = .ok patched := by
  induction sections generalizing tree with
  | nil => exact applied
  | cons section_ rest ih =>
      obtain ⟨next, step, applied⟩ := bind_eq_ok_iff.1 applied
      have later := ih applied
      by_cases file : (tree.octets? (workspace.resolve section_.path)).isSome = true
      · -- The same files are there when the later sections come.
        have same : workspace.present next rest = workspace.present tree rest := by
          simp only [present, (applySection_written file step).isSome_octets?]
        rw [same] at later
        rw [present, List.filter_cons, if_pos file, applySections, step]
        exact later
      · rw [applySection_of_missing file] at step
        cases step
        rw [present, List.filter_cons, if_neg file]
        exact later

end Workspace

end Traceability
