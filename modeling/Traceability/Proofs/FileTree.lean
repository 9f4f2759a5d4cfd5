/-
# Traceability.Proofs.FileTree -- where names lead, and what a write changes

Following names from the root ends at a place without `..`, and above it there
are directories only (`IsStanding`).  So the place is the normal form of the
names (`follow_eq_normalize`), and a path to a file ends in the name of the file
itself, below a directory that the names before it lead to (`file_split`).

Writing to a file that is there leaves every path leading where it led, and
every other file as it was (`octets?_writeOctets`).  Writing a text can come to three
things (`WritingStep`); it is done when the disk takes the text (`Disk.Writes`).
-/
import Traceability.FileTree
import Traceability.Proofs.Path

namespace Traceability

set_option autoImplicit false

/-- The disk says what lies at a path, and opens a file there for reading. -/
structure Disk.Shows (disk : Disk) (path : Path) : Prop where
  answers : disk.denies path = none
  opens : disk.hides path = none

/-- The disk opens the file at a path and takes the text, which has octets. -/
structure Disk.Writes (disk : Disk) (path : Path) (text : Text) : Prop where
  opens : disk.refuses path = none
  encodes : disk.halves.fault? text = none
  goesOn : disk.breaksOff path (Text.Utf8.encode text) = none

namespace FileTree

variable {tree : FileTree}

/-! ## Following names -/

/-- What one more name did on the way to a place. -/
theorem follow_cons {place rest found : List String} {name : String}
    (led : tree.follow place (name :: rest) = some found) :
    tree.isDirectoryAt place = true ∧
      (name = ".." ∧ tree.follow place.dropLast rest = some found ∨
        name ≠ ".." ∧ tree.follow (place ++ [name]) rest = some found) := by
  rw [follow] at led
  split at led
  · cases led
  · rename_i directory
    rw [Bool.not_eq_true, Bool.not_eq_false'] at directory
    refine ⟨directory, ?_⟩
    split at led
    · rename_i up
      exact Or.inl ⟨up, led⟩
    · rename_i down
      split at led
      · exact Or.inr ⟨down, led⟩
      · cases led

theorem follow_append (place front back : List String) :
    tree.follow place (front ++ back) =
      (tree.follow place front).bind fun middle => tree.follow middle back := by
  induction front generalizing place with
  | nil => rfl
  | cons name front ih =>
      simp only [List.cons_append, follow]
      split
      · rfl
      · split
        · exact ih place.dropLast
        · split
          · exact ih (place ++ [name])
          · rfl

/-- A place that can be reached by following names: no name of it goes back, and what lies above it
is a directory. -/
structure IsStanding (tree : FileTree) (place : List String) : Prop where
  plain : ".." ∉ place
  above : ∀ front name, front ++ [name] <+: place → tree.isDirectoryAt front = true

theorem isDirectoryAt_nil (tree : FileTree) : tree.isDirectoryAt [] = true := rfl

namespace IsStanding

theorem root (tree : FileTree) : tree.IsStanding [] := by
  refine ⟨List.not_mem_nil, fun front name within => ?_⟩
  exact absurd (List.prefix_nil.1 within) (by simp)

theorem push {place : List String} {name : String} (standing : tree.IsStanding place)
    (directory : tree.isDirectoryAt place = true) (down : name ≠ "..") :
    tree.IsStanding (place ++ [name]) := by
  refine ⟨?_, fun front last within => ?_⟩
  · rw [List.mem_append, not_or]
    exact ⟨standing.plain, by simpa using Ne.symm down⟩
  · rcases List.prefix_concat_iff.1 within with whole | inside
    · obtain ⟨rfl, -⟩ := List.append_inj' whole rfl
      exact directory
    · exact standing.above front last inside

theorem pop {place : List String} (standing : tree.IsStanding place) :
    tree.IsStanding place.dropLast := by
  have inside : place.dropLast <+: place := List.dropLast_prefix place
  exact ⟨fun member => standing.plain (inside.subset member),
    fun front name within => standing.above front name (within.trans inside)⟩

/-- What one goes back to is a directory. -/
theorem dropLast_directory {place : List String} (standing : tree.IsStanding place) :
    tree.isDirectoryAt place.dropLast = true := by
  rcases List.eq_nil_or_concat place with rfl | ⟨front, last, rfl⟩
  · exact isDirectoryAt_nil tree
  · rw [List.concat_eq_append, List.dropLast_concat]
    refine standing.above front last ⟨[], ?_⟩
    rw [List.concat_eq_append, List.append_nil]

/-- Taking `..` against the names of a place goes back from it. -/
theorem pushName_up {place : List String} (standing : tree.IsStanding place) :
    Path.pushName true place.reverse ".." = place.dropLast.reverse := by
  rw [Path.pushName.eq_def, if_pos rfl]
  rcases List.eq_nil_or_concat place with rfl | ⟨front, last, rfl⟩
  · rfl
  · have plain : last ≠ ".." := by
      rintro rfl
      exact standing.plain (by simp)
    simp [plain]

/-- Following names keeps the invariant, and does to the place what taking `..` against the name
before it does to the names. -/
theorem follow {place names found : List String} (standing : tree.IsStanding place)
    (led : tree.follow place names = some found) :
    tree.IsStanding found ∧
      (names.foldl (Path.pushName true) place.reverse).reverse = found := by
  induction names generalizing place with
  | nil =>
      cases led
      exact ⟨standing, List.reverse_reverse _⟩
  | cons name rest ih =>
      obtain ⟨directory, ⟨up, led⟩ | ⟨down, led⟩⟩ := follow_cons led
      · obtain ⟨stands, folded⟩ := ih standing.pop led
        refine ⟨stands, ?_⟩
        rw [List.foldl_cons, up, standing.pushName_up]
        exact folded
      · obtain ⟨stands, folded⟩ := ih (standing.push directory down) led
        refine ⟨stands, ?_⟩
        have pushed : Path.pushName true place.reverse name = (place ++ [name]).reverse := by
          rw [Path.pushName.eq_def, if_neg down, List.reverse_append]
          rfl
        rw [List.foldl_cons, pushed]
        exact folded

end IsStanding

/-- **Names lead to their normal form**, if they lead anywhere: there are no links that `..` could
go back through to another place. -/
theorem follow_eq_normalize {path : Path} {place : List String}
    (absolute : path.anchor ≠ .relative) (led : tree.follow [] path.names = some place) :
    path.normalize = ⟨path.anchor, place⟩ := by
  have rooted : path.isAbsolute = true := by rwa [Path.isAbsolute, bne_iff_ne]
  have folded := ((IsStanding.root tree).follow led).2
  rw [List.reverse_nil] at folded
  rw [Path.normalize, rooted, folded]

/-! ## Files -/

/-- The octets of the file at a place, if there is one. -/
def fileAt? (tree : FileTree) (place : List String) : Option (List UInt8) :=
  match tree.entryAt? place with
  | some (.file octets) => some octets
  | _ => none

theorem octets?_eq (tree : FileTree) (path : Path) :
    tree.octets? path = (tree.follow [] path.names).bind tree.fileAt? := by
  rw [octets?, entry?]
  cases tree.follow [] path.names <;> rfl

theorem entry?_of_octets {path : Path} {octets : List UInt8}
    (file : tree.octets? path = some octets) : tree.entry? path = some (.file octets) := by
  unfold octets? at file
  split at file
  · rename_i entry
    cases file
    exact entry
  · cases file

theorem has_of_octets {path : Path} {octets : List UInt8}
    (file : tree.octets? path = some octets) : tree.has path = true := by
  rw [has, entry?_of_octets file]
  rfl

theorem fileAt?_eq_some_iff {place : List String} {octets : List UInt8} :
    tree.fileAt? place = some octets ↔ tree.entryAt? place = some (.file octets) := by
  rw [fileAt?]
  split
  · rename_i found there
    rw [there, Option.some.injEq, Option.some.injEq, FileEntry.file.injEq]
  · rename_i other
    exact ⟨nofun, fun there => absurd there (other octets)⟩

theorem fileAt?_of_directory {place : List String} (directory : tree.isDirectoryAt place = true) :
    tree.fileAt? place = none := by
  rw [fileAt?, of_decide_eq_true directory]

/-- A path to a file is a path to a directory and the name of the file in it. -/
theorem file_split {path : Path} {octets : List UInt8} (file : tree.octets? path = some octets) :
    ∃ front last directory, path.names = front ++ [last] ∧
      tree.follow [] front = some directory ∧
      tree.follow [] path.names = some (directory ++ [last]) ∧
      tree.fileAt? (directory ++ [last]) = some octets := by
  rw [octets?_eq] at file
  obtain ⟨place, led, there⟩ := Option.bind_eq_some_iff.1 file
  rcases List.eq_nil_or_concat path.names with none_left | ⟨front, last, names⟩
  · rw [none_left] at led
    cases led
    rw [fileAt?_of_directory (isDirectoryAt_nil tree)] at there
    cases there
  · rw [List.concat_eq_append] at names
    have steps := led
    rw [names, follow_append] at steps
    obtain ⟨directory, ledTo, lastStep⟩ := Option.bind_eq_some_iff.1 steps
    refine ⟨front, last, directory, names, ledTo, ?_⟩
    obtain ⟨-, ⟨-, found⟩ | ⟨-, found⟩⟩ := follow_cons lastStep
    · -- Going back ends in a directory, and this is a file.
      cases found
      have standing := ((IsStanding.root tree).follow ledTo).1
      rw [fileAt?_of_directory standing.dropLast_directory] at there
      cases there
    · cases found
      exact ⟨led, there⟩

/-! ## Writing -/

theorem disk_setEntry (tree : FileTree) (place : List String) (entry : FileEntry) :
    (tree.setEntry place entry).disk = tree.disk := by
  rw [setEntry]
  split <;> rfl

theorem disk_writeOctets (tree : FileTree) (path : Path) (octets : List UInt8) :
    (tree.writeOctets path octets).disk = tree.disk := by
  rw [writeOctets]
  split
  · exact disk_setEntry _ _ _
  · rfl

/-- What writing a text can come to. -/
inductive WritingStep (tree : FileTree) (path : Path) (text : Text) : Writing → Prop where
  | refused (reason : String) : WritingStep tree path text ⟨tree, some (.refused reason)⟩
  /-- The file is open, and loses its text.  It stays empty if the new one has no octets. -/
  | lost (left : List UInt8) {fault : WriteFault} (loses : fault.losesText = true)
      (empties : fault.isOfDisk = false → left = []) :
      WritingStep tree path text ⟨tree.writeOctets path left, some fault⟩
  | done (writes : tree.disk.Writes path text) :
      WritingStep tree path text ⟨tree.writeText path text, none⟩

theorem write_step (tree : FileTree) (path : Path) (text : Text) :
    WritingStep tree path text (tree.write path text) := by
  unfold write
  split
  · exact .refused _
  · rename_i opens
    split
    · exact .lost [] rfl fun _ => rfl
    · rename_i encodes
      split
      · exact .lost _ rfl nofun
      · rename_i goesOn
        exact .done ⟨opens, encodes, goesOn⟩

theorem write_of_writes {path : Path} {text : Text} (writes : tree.disk.Writes path text) :
    tree.write path text = ⟨tree.writeText path text, none⟩ := by
  simp only [write, writes.opens, writes.encodes, writes.goesOn]

theorem writes_of_fault_eq_none {path : Path} {text : Text}
    (done : (tree.write path text).fault = none) : tree.disk.Writes path text := by
  have step := write_step tree path text
  generalize tree.write path text = writing at step done
  cases step with
  | refused reason => cases done
  | lost left loses empties => cases done
  | done writes => exact writes

theorem lookup_replace (entries : List (List String × FileEntry)) (place other : List String)
    (entry : FileEntry) :
    (entries.map fun old => if old.1 == place then (place, entry) else old).lookup other =
      if other = place ∧ entries.any (·.1 == place) = true then some entry
      else entries.lookup other := by
  induction entries with
  | nil => simp
  | cons old rest ih =>
      obtain ⟨key, value⟩ := old
      rw [List.map_cons, List.lookup_cons, List.lookup_cons, List.any_cons]
      by_cases same : other = key
      · by_cases replaced : key = place
        · simp [same, replaced]
        · simp [same, replaced]
      · have apart : (other == key) = false := beq_eq_false_iff_ne.2 same
        by_cases replaced : key = place
        · subst replaced
          simp only [beq_self_eq_true, if_true, apart, same, false_and, if_false]
          rw [ih, if_neg fun both => same both.1]
        · have kept : (key == place) = false := beq_eq_false_iff_ne.2 replaced
          simp only [kept, Bool.false_eq_true, if_false, apart, Bool.false_or]
          exact ih

theorem lookup_setEntry (place other : List String) (entry : FileEntry) :
    (tree.setEntry place entry).entries.lookup other =
      if other = place then some entry else tree.entries.lookup other := by
  rw [setEntry]
  split
  · rename_i there
    rw [lookup_replace, there]
    simp
  · rename_i missing
    have absent : tree.entries.lookup place = none := by
      rw [List.lookup_eq_none_iff]
      intro entry member
      rw [Bool.not_eq_true, List.any_eq_false] at missing
      rw [bne_iff_ne, ne_eq]
      intro same
      exact missing entry member (by simp [← same])
    rw [List.lookup_append]
    by_cases same : other = place
    · rw [same, absent]
      simp
    · rw [if_neg same, List.lookup_cons, beq_eq_false_iff_ne.2 same]
      simp

theorem entryAt?_setEntry {place : List String} (named : place ≠ []) (entry : FileEntry)
    (other : List String) :
    (tree.setEntry place entry).entryAt? other =
      if other = place then some entry else tree.entryAt? other := by
  rw [entryAt?, entryAt?]
  by_cases root : other = []
  · have apart : other ≠ place := by
      rw [root]
      exact Ne.symm named
    rw [if_neg apart, root]
    rfl
  · have given : ¬other.isEmpty = true := by rwa [List.isEmpty_iff]
    rw [if_neg given, if_neg given, lookup_setEntry]

/-- Where names lead depends only on which places there are and which of them are directories. -/
theorem follow_congr {other : FileTree}
    (directories : ∀ place, other.isDirectoryAt place = tree.isDirectoryAt place)
    (places : ∀ place, (other.entryAt? place).isSome = (tree.entryAt? place).isSome)
    (place names : List String) : other.follow place names = tree.follow place names := by
  induction names generalizing place with
  | nil => rfl
  | cons name rest ih => rw [follow, follow, directories, places, ih, ih]

section Write

variable {place : List String} {old : List UInt8} (there : tree.fileAt? place = some old)
include there

theorem place_ne_nil : place ≠ [] := by
  rintro rfl
  rw [fileAt?_of_directory (isDirectoryAt_nil tree)] at there
  cases there

theorem mem_entries_of_fileAt? : (place, .file old) ∈ tree.entries := by
  have named : ¬place.isEmpty = true := by
    rw [List.isEmpty_iff]
    exact place_ne_nil there
  have entry := fileAt?_eq_some_iff.1 there
  rw [entryAt?, if_neg named] at entry
  obtain ⟨before, after, split, -⟩ := List.lookup_eq_some_iff.1 entry
  rw [split]
  exact List.mem_append_right _ List.mem_cons_self

theorem follow_setEntry (new : List UInt8) (from_ names : List String) :
    (tree.setEntry place (.file new)).follow from_ names = tree.follow from_ names := by
  have before := fileAt?_eq_some_iff.1 there
  refine follow_congr (fun other => ?_) (fun other => ?_) from_ names
  · rw [isDirectoryAt, isDirectoryAt, entryAt?_setEntry (place_ne_nil there)]
    by_cases same : other = place
    · rw [if_pos same, same, before]
      rfl
    · rw [if_neg same]
  · rw [entryAt?_setEntry (place_ne_nil there)]
    by_cases same : other = place
    · rw [if_pos same, same, before]
      rfl
    · rw [if_neg same]

theorem fileAt?_setEntry (new : List UInt8) (other : List String) :
    (tree.setEntry place (.file new)).fileAt? other =
      if other = place then some new else tree.fileAt? other := by
  rw [fileAt?, entryAt?_setEntry (place_ne_nil there)]
  by_cases same : other = place
  · rw [if_pos same, if_pos same]
  · rw [if_neg same, if_neg same, fileAt?]

end Write

/-- Writing to a file that is there sets its entry. -/
theorem writeOctets_eq {path : Path} {place : List String} {old : List UInt8}
    (led : tree.follow [] path.names = some place) (there : tree.fileAt? place = some old)
    (octets : List UInt8) :
    tree.writeOctets path octets = tree.setEntry place (.file octets) := by
  have file : tree.octets? path = some old := by rw [octets?_eq, led]; exact there
  obtain ⟨front, last, directory, names, ledTo, whole, -⟩ := file_split file
  have parent : path.parent.names = front := by rw [Path.parent, names, List.dropLast_concat]
  have name : path.name = last := by
    rw [Path.name, names, List.getLast?_concat, Option.getD_some]
  rw [led, Option.some.injEq] at whole
  simp only [writeOctets, parent, ledTo, name, whole]

/-- What a write to a file that is there changes: the file itself, under all of its paths. -/
theorem octets?_writeOctets {path : Path} {old : List UInt8} (file : tree.octets? path = some old)
    (octets : List UInt8) (other : Path) :
    (tree.writeOctets path octets).octets? other =
      if tree.follow [] other.names = tree.follow [] path.names then some octets
      else tree.octets? other := by
  rw [octets?_eq] at file
  obtain ⟨place, led, there⟩ := Option.bind_eq_some_iff.1 file
  rw [writeOctets_eq led there, octets?_eq, octets?_eq, follow_setEntry there, led]
  cases tree.follow [] other.names with
  | none => rfl
  | some found =>
      simp only [Option.bind_some, fileAt?_setEntry there, Option.some.injEq]

end FileTree

end Traceability
