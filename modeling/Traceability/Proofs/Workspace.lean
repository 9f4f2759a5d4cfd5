/-
# Traceability.Proofs.Workspace -- a workspace whose configuration stays

The configuration of a workspace is read from a file, which is given or looked for
from the root of the workspace upwards (`Config.lookedFor`, `Config.file?`).  When
files are saved elsewhere, the disk is asked about the same paths, and the same file is
found and read again (`Workspace.ofDirectory_of_grows`).  A new file can come in the
way where one is looked for, so such places must not be touched unless a file is
there already.
-/
import Mathlib.Data.List.Find
import Traceability.Proofs.FileTree.Saving
import Traceability.Proofs.Json.Record
import Traceability.Workspace

namespace Traceability

set_option autoImplicit false

/-! ## Places -/

namespace Path

theorem not_mem_foldl_pushName {names before : List String} (plain : ".." ∉ before) :
    ".." ∉ names.foldl (pushName true) before := by
  induction names generalizing before with
  | nil => exact plain
  | cons name rest ih =>
      rw [List.foldl_cons]
      refine ih ?_
      rw [pushName.eq_def]
      split
      · split
        · simp
        · rename_i last earlier
          rw [List.mem_cons, not_or] at plain
          rw [if_neg (Ne.symm plain.1)]
          exact plain.2
      · rename_i down
        rw [List.mem_cons, not_or]
        exact ⟨Ne.symm down, plain⟩

theorem not_mem_place (path : Path) : ".." ∉ path.place := by
  rw [place, List.mem_reverse]
  exact not_mem_foldl_pushName List.not_mem_nil

theorem not_mem_resolve {directory : Path} (absolute : directory.isAbsolute = true) (path : Path) :
    ".." ∉ (resolve directory path).names := by
  have rooted : (directory.join path).isAbsolute = true := by
    unfold join
    split
    · assumption
    · exact absolute
  have names : (resolve directory path).names = (directory.join path).place := by
    show (directory.join path).normalize.names = _
    rw [normalize, rooted]
    rfl
  rw [names]
  exact not_mem_place _

end Path

/-! ## Configurations -/

theorem FileTree.askAll_congr {tree next : FileTree} (disk : next.disk = tree.disk)
    (paths : List Path) : next.askAll paths = tree.askAll paths := by
  induction paths with
  | nil => rfl
  | cons path rest ih => rw [askAll, askAll, ask, ask, disk, ih]

namespace Config

/-- Where the configuration of a directory is looked for: in the given file, or in the directory and
those above it. -/
def lookedFor (file : Option Path) (directory : Path) : List Path :=
  match file with
  | some path => [path]
  | none => candidates directory

/-- The file that the configuration of a directory is read from, if there is one. -/
def file? (tree : FileTree) (file : Option Path) (directory : Path) : Option Path :=
  file.or (find? tree directory)

variable {tree next : FileTree} {around : Surroundings} {file : Option Path} {directory : Path}
  {touched : List String → Prop} {config : Json.Fields}

theorem exists_octets_of_ofFile {path : Path} (read : ofFile tree around path = .ok config) :
    ∃ octets, tree.octets? (around.directory.join path) = some octets := by
  cases entry : tree.entry? (around.directory.join path) with
  | none => simp [ofFile, FileTree.readText, entry, bind, Except.bind] at read
  | some found =>
      cases found with
      | directory =>
          simp [ofFile, FileTree.readText, entry, bind, Except.bind] at read
      | file octets => exact ⟨octets, by rw [FileTree.octets?, entry]⟩

/-- On one disk, the configuration of a file depends on its octets alone. -/
theorem ofFile_congr {path : Path} {octets : List UInt8} (disk : next.disk = tree.disk)
    (before : tree.octets? (around.directory.join path) = some octets)
    (after : next.octets? (around.directory.join path) = some octets) :
    ofFile next around path = ofFile tree around path := by
  have same : next.readText (around.directory.join path) =
      tree.readText (around.directory.join path) := by
    rw [FileTree.readText, FileTree.readText, FileTree.entry?_of_octets before,
      FileTree.entry?_of_octets after, disk]
  rw [ofFile, ofFile, same]

/-- A configuration is looked for under one name. -/
theorem exists_take_of_mem_candidates {path : Path} (member : path ∈ candidates directory) :
    ∃ n, path = ⟨directory.anchor, directory.names.take n ++ [fileName]⟩ := by
  obtain ⟨above, among, rfl⟩ := List.mem_map.1 member
  rw [Path.ancestors, List.mem_reverse] at among
  obtain ⟨n, -, rfl⟩ := List.mem_map.1 among
  have name : Path.ofString fileName = ⟨.relative, [fileName]⟩ := by decide +kernel
  rw [name]
  exact ⟨n, rfl⟩

/-- Where a configuration is looked for above a directory is again a path from the root. -/
theorem plain_of_mem_candidates (absolute : directory.isAbsolute = true)
    (plain : ".." ∉ directory.names) {path : Path} (member : path ∈ candidates directory) :
    path.isAbsolute = true ∧ ".." ∉ path.names := by
  obtain ⟨n, rfl⟩ := exists_take_of_mem_candidates member
  refine ⟨absolute, ?_⟩
  rw [List.mem_append, not_or]
  exact ⟨fun member => plain (List.mem_of_mem_take member), by decide⟩

theorem join_of_absolute (base : Path) {path : Path} (absolute : path.isAbsolute = true) :
    base.join path = path := by
  rw [Path.join, if_pos absolute]

/-- The file that a configuration is read from is there. -/
theorem exists_octets_of_inForce (read : inForce tree around file directory = .ok config)
    {path : Path} (found : file? tree file directory = some path) :
    ∃ octets, tree.octets? (around.directory.join path) = some octets := by
  obtain ⟨_, -, read⟩ := bind_eq_ok_iff.1 read
  rw [← file?, found] at read
  simp only at read
  split at read
  · exact exists_octets_of_ofFile read
  · cases read

section Grows

variable (grows : FileTree.Grows touched tree next) (grounded : tree.IsGrounded)
  (absolute : directory.isAbsolute = true) (plain : ".." ∉ directory.names)
  (present : ∀ path ∈ lookedFor file directory, touched (around.directory.join path).place →
    (tree.fileAt? (around.directory.join path).place).isSome = true)

include grows grounded absolute plain present

/-- The configuration is read from the same file. -/
theorem file?_of_grows : file? next file directory = file? tree file directory := by
  cases file with
  | some given => rfl
  | none =>
      show find? next directory = find? tree directory
      refine List.find?_congr fun path member => ?_
      obtain ⟨rooted, free⟩ := plain_of_mem_candidates absolute plain member
      have here := present path member
      rw [join_of_absolute _ rooted] at here
      rw [Bool.eq_iff_iff]
      refine ⟨fun there => ?_, grows.isSome_octets?⟩
      by_cases touches : touched path.place
      · obtain ⟨octets, found⟩ := Option.isSome_iff_exists.1 (here touches)
        rw [grounded.octets?_of_plain free found]
        rfl
      · obtain ⟨octets, found⟩ := Option.isSome_iff_exists.1 there
        rw [grows.octets?_of_plain grounded free touches found]
        rfl

/-- The disk is asked about the same paths. -/
theorem asked_of_grows : asked next around file directory = asked tree around file directory := by
  have found := file?_of_grows grows grounded absolute plain present
  cases file with
  | some given => rfl
  | none => rw [asked, asked, show find? next directory = find? tree directory from found]

/-- The configuration stays in force, unless the file it is read from is touched. -/
theorem inForce_of_grows
    (untouched : ∀ path, file? tree file directory = some path →
      ¬touched (around.directory.join path).place)
    (read : inForce tree around file directory = .ok config) :
    inForce next around file directory = .ok config := by
  have same := file?_of_grows grows grounded absolute plain present
  have asks := asked_of_grows grows grounded absolute plain present
  unfold inForce at read ⊢
  rw [← file?] at read ⊢
  rw [same, asks, FileTree.askAll_congr grows.disk]
  obtain ⟨_, granted, read⟩ := bind_eq_ok_iff.1 read
  refine bind_eq_ok_iff.2 ⟨_, granted, ?_⟩
  cases found : file? tree file directory with
  | none =>
      rw [found] at read
      exact read
  | some path =>
      simp only [found] at read ⊢
      split at read
      · obtain ⟨octets, before⟩ := exists_octets_of_ofFile read
        have after := grows.octets? before (untouched path found)
        rw [if_pos (FileTree.has_of_octets after), ofFile_congr grows.disk before after]
        exact read
      · cases read

end Grows

end Config

/-- **A workspace stays** when files are saved away from its configuration. -/
theorem Workspace.ofDirectory_of_grows {touched : List String → Prop} {tree next : FileTree}
    {around : Surroundings} {directory : Path} {file : Option Path} {workspace : Workspace}
    (grows : FileTree.Grows touched tree next) (grounded : tree.IsGrounded)
    (absolute : around.directory.isAbsolute = true)
    (found : Workspace.ofDirectory tree around directory file = .ok workspace)
    (present : ∀ path ∈ Config.lookedFor file workspace.root,
      touched (around.directory.join path).place →
        (tree.fileAt? (around.directory.join path).place).isSome = true)
    (untouched : ∀ path, Config.file? tree file workspace.root = some path →
      ¬touched (around.directory.join path).place) :
    Workspace.ofDirectory next around directory file = .ok workspace ∧
      Config.file? next file workspace.root = Config.file? tree file workspace.root := by
  obtain ⟨config, read, made⟩ := bind_eq_ok_iff.1 found
  cases made
  have plain := Path.not_mem_resolve absolute directory
  refine ⟨bind_eq_ok_iff.2 ⟨config, ?_, rfl⟩, ?_⟩
  · exact Config.inForce_of_grows grows grounded rfl plain present untouched read
  · exact Config.file?_of_grows grows grounded rfl plain present

/-- Saving a file at a path leaves the configuration as it is: it is read from another file, and it is
not looked for where the path leads to a new one. -/
structure Config.IsApart (tree : FileTree) (around : Surroundings) (file : Option Path)
    (directory path : Path) : Prop where
  inForce : ∀ found ∈ file? tree file directory, (around.directory.join found).place ≠ path.place
  lookedFor : tree.octets? path = none → ∀ other ∈ lookedFor file directory,
    (around.directory.join other).place ≠ path.place

instance (tree : FileTree) (around : Surroundings) (file : Option Path) (directory path : Path) :
    Decidable (Config.IsApart tree around file directory path) :=
  decidable_of_iff
    ((∀ found ∈ Config.file? tree file directory,
        (around.directory.join found).place ≠ path.place) ∧
      (tree.octets? path = none → ∀ other ∈ Config.lookedFor file directory,
        (around.directory.join other).place ≠ path.place))
    ⟨fun ⟨inForce, lookedFor⟩ => ⟨inForce, lookedFor⟩,
      fun apart => ⟨apart.inForce, apart.lookedFor⟩⟩

/-- A workspace stays when nothing but one file changes, apart from its configuration. -/
theorem Workspace.ofDirectory_of_grows_apart {tree next : FileTree} {around : Surroundings}
    {directory path : Path} {file : Option Path} {workspace : Workspace}
    (grows : FileTree.Grows (· = path.place) tree next) (grounded : tree.IsGrounded)
    (absolute : around.directory.isAbsolute = true)
    (found : Workspace.ofDirectory tree around directory file = .ok workspace)
    (apart : Config.IsApart tree around file workspace.root path) :
    Workspace.ofDirectory next around directory file = .ok workspace ∧
      Config.file? next file workspace.root = Config.file? tree file workspace.root := by
  refine ofDirectory_of_grows grows grounded absolute found ?_ apart.inForce
  intro other member here
  cases there : tree.octets? path with
  | none => exact absurd here (apart.lookedFor there other member)
  | some octets =>
      rw [FileTree.octets?_eq] at there
      obtain ⟨place, led, file⟩ := Option.bind_eq_some_iff.1 there
      rw [here, FileTree.follow_eq_place led, file]
      rfl

/-- The configuration lies apart from drafts: they are new, and it is not looked for under their
names. -/
theorem Workspace.isApart_draft {tree : FileTree} {around : Surroundings} {directory path : Path}
    {file : Option Path} {workspace : Workspace} (absolute : around.directory.isAbsolute = true)
    (found : Workspace.ofDirectory tree around directory file = .ok workspace)
    (parent : tree.entry? path.parent = some .directory) :
    Config.IsApart tree around file workspace.root (tree.draft path) := by
  obtain ⟨config, read, made⟩ := bind_eq_ok_iff.1 found
  cases made
  have inForce : ∀ other ∈ Config.file? tree file (Path.resolve around.directory directory),
      (around.directory.join other).place ≠ (tree.draft path).place := by
    intro other member same
    obtain ⟨octets, there⟩ := Config.exists_octets_of_inForce read member
    rw [FileTree.octets?_eq] at there
    obtain ⟨place, led, there⟩ := Option.bind_eq_some_iff.1 there
    rw [← FileTree.follow_eq_place led, same, FileTree.fileAt?_eq_some_iff,
      FileTree.entryAt?_draft parent] at there
    cases there
  refine ⟨inForce, fun _ other member => ?_⟩
  cases file with
  | some given => exact inForce other (congrArg some (List.mem_singleton.1 member)).symm
  | none =>
      have plain := Path.not_mem_resolve absolute directory
      obtain ⟨rooted, free⟩ := Config.plain_of_mem_candidates rfl plain member
      obtain ⟨n, rfl⟩ := Config.exists_take_of_mem_candidates member
      obtain ⟨letters, place⟩ := FileTree.isDraftOf_draft parent
      rw [Config.join_of_absolute _ rooted, Path.place_of_plain free, place]
      intro same
      have names := congrArg List.getLast? same
      rw [List.getLast?_concat, List.getLast?_concat, Option.some.injEq] at names
      exact FileTree.draftName_ne (by decide) _ _ names.symm

end Traceability
