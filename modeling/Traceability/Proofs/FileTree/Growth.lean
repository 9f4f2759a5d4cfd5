/-
# Traceability.Proofs.FileTree.Growth -- what stays when files are saved

Between two trees `Grows` says that no directory and no file has gone, and that
no file has changed or come into being at a place that was not touched.  Then
every path that led somewhere leads there still (`Grows.follow`).  The converse
needs that a path does not go through new directories: it holds for paths without
`..` if every file lies in directories (`IsGrounded`, `Grows.octets?_of_plain`).

A new directory touches nothing, and a file that is written only its own place
(`grows_setEntry_directory`, `grows_setEntry_file`).
-/
import Mathlib.Data.List.Induction
import Traceability.Proofs.FileTree

namespace Traceability

set_option autoImplicit false

/-- The place that a path names from the root: its names, with every `..` taken against the name
before it. -/
def Path.place (path : Path) : List String :=
  (path.names.foldl (Path.pushName true) []).reverse

theorem Path.place_of_plain {path : Path} (plain : ".." ∉ path.names) : path.place = path.names := by
  rw [Path.place, Path.foldl_pushName_of_plain plain, List.append_nil, List.reverse_reverse]

/-- The path names another place than each of these. -/
def Path.IsOff (path : Path) (others : List Path) : Prop :=
  ∀ other ∈ others, other.place ≠ path.place

instance (path : Path) (others : List Path) : Decidable (path.IsOff others) :=
  inferInstanceAs (Decidable (∀ other ∈ others, other.place ≠ path.place))

namespace FileTree

variable {tree next : FileTree}

theorem follow_eq_place {path : Path} {place : List String}
    (led : tree.follow [] path.names = some place) : path.place = place :=
  ((IsStanding.root tree).follow led).2

theorem IsStanding.of_prefix {place front : List String} (standing : tree.IsStanding place)
    (inside : front <+: place) : tree.IsStanding front :=
  ⟨fun member => standing.plain (inside.subset member),
    fun before name within => standing.above before name (within.trans inside)⟩

theorem follow_last {directory : List String} {last : String}
    (isDirectory : tree.isDirectoryAt directory = true) (down : last ≠ "..")
    (there : (tree.entryAt? (directory ++ [last])).isSome = true) :
    tree.follow directory [last] = some (directory ++ [last]) := by
  simp only [follow, isDirectory, Bool.not_true, Bool.false_eq_true, if_false, if_neg down, there,
    if_true]

/-- A place below directories is where its own names lead. -/
theorem IsStanding.follow_self {place : List String} (standing : tree.IsStanding place)
    (there : (tree.entryAt? place).isSome = true) : tree.follow [] place = some place := by
  induction place using List.reverseRecOn with
  | nil => rfl
  | append_singleton front last ih =>
      have directory : tree.isDirectoryAt front = true :=
        standing.above front last (List.prefix_refl _)
      have entry : (tree.entryAt? front).isSome = true := by
        rw [of_decide_eq_true directory]
        rfl
      have down : last ≠ ".." := by
        rintro rfl
        exact standing.plain (by simp)
      rw [follow_append, ih (standing.of_prefix (List.prefix_append _ _)) entry, Option.bind_some]
      exact follow_last directory down there

/-! ## Growth -/

/-- Nothing has gone from the first tree to the second, files have changed or come into being at the
touched places alone, and the disk is the same. -/
structure Grows (touched : List String → Prop) (tree next : FileTree) : Prop where
  disk : next.disk = tree.disk
  directories : ∀ place, tree.isDirectoryAt place = true → next.isDirectoryAt place = true
  files : ∀ place, (tree.fileAt? place).isSome = true → (next.fileAt? place).isSome = true
  others : ∀ place, ¬touched place → next.fileAt? place = tree.fileAt? place

namespace Grows

variable {touched : List String → Prop}

theorem refl (tree : FileTree) : Grows touched tree tree :=
  ⟨rfl, fun _ directory => directory, fun _ file => file, fun _ _ => rfl⟩

theorem trans {last : FileTree} (before : Grows touched tree next) (after : Grows touched next last) :
    Grows touched tree last where
  disk := after.disk.trans before.disk
  directories place directory := after.directories place (before.directories place directory)
  files place file := after.files place (before.files place file)
  others place untouched := (after.others place untouched).trans (before.others place untouched)

theorem mono {more : List String → Prop} (grows : Grows touched tree next)
    (all : ∀ place, touched place → more place) : Grows more tree next where
  disk := grows.disk
  directories := grows.directories
  files := grows.files
  others place untouched := grows.others place fun touches => untouched (all place touches)

theorem entries (grows : Grows touched tree next) {place : List String}
    (there : (tree.entryAt? place).isSome = true) : (next.entryAt? place).isSome = true := by
  cases entry : tree.entryAt? place with
  | none => simp [entry] at there
  | some found =>
      cases found with
      | directory =>
          have directory := grows.directories place (decide_eq_true entry)
          rw [of_decide_eq_true directory]
          rfl
      | file octets =>
          have file := grows.files place (by rw [fileAt?_eq_some_iff.2 entry]; rfl)
          obtain ⟨new, found⟩ := Option.isSome_iff_exists.1 file
          rw [fileAt?_eq_some_iff.1 found]
          rfl

/-- Names that led somewhere lead there still. -/
theorem follow (grows : Grows touched tree next) {place names found : List String}
    (led : tree.follow place names = some found) : next.follow place names = some found := by
  induction names generalizing place with
  | nil => exact led
  | cons name rest ih =>
      rw [FileTree.follow] at led ⊢
      by_cases directory : tree.isDirectoryAt place = true
      · rw [directory] at led
        rw [grows.directories place directory]
        simp only [Bool.not_true, Bool.false_eq_true, if_false] at led ⊢
        by_cases up : name = ".."
        · rw [if_pos up] at led ⊢
          exact ih led
        · rw [if_neg up] at led ⊢
          by_cases there : (tree.entryAt? (place ++ [name])).isSome = true
          · rw [if_pos there] at led
            rw [if_pos (grows.entries there)]
            exact ih led
          · rw [if_neg there] at led
            cases led
      · simp [directory] at led

theorem octets? (grows : Grows touched tree next) {path : Path} {octets : List UInt8}
    (file : tree.octets? path = some octets) (untouched : ¬touched path.place) :
    next.octets? path = some octets := by
  rw [octets?_eq] at file ⊢
  obtain ⟨place, led, there⟩ := Option.bind_eq_some_iff.1 file
  rw [follow_eq_place led] at untouched
  rw [grows.follow led, Option.bind_some, grows.others place untouched, there]

theorem isSome_octets? (grows : Grows touched tree next) {path : Path}
    (file : (tree.octets? path).isSome = true) : (next.octets? path).isSome = true := by
  rw [octets?_eq] at file ⊢
  obtain ⟨octets, found⟩ := Option.isSome_iff_exists.1 file
  obtain ⟨place, led, there⟩ := Option.bind_eq_some_iff.1 found
  rw [grows.follow led, Option.bind_some]
  exact grows.files place (by rw [there]; rfl)

end Grows

/-- Every file lies in directories. -/
def IsGrounded (tree : FileTree) : Prop :=
  ∀ place octets, tree.fileAt? place = some octets → tree.IsStanding place

theorem isGrounded_of_entries (all : ∀ entry ∈ tree.entries, ".." ∉ entry.1 ∧
    ∀ n < entry.1.length, tree.isDirectoryAt (entry.1.take n) = true) : tree.IsGrounded := by
  intro place octets file
  obtain ⟨plain, above⟩ := all _ (mem_entries_of_fileAt? file)
  refine ⟨plain, fun front name within => ?_⟩
  have shorter : front.length < place.length := by
    have length := within.length_le
    rw [List.length_append, List.length_singleton] at length
    omega
  have taken : place.take front.length = front :=
    (List.prefix_iff_eq_take.1 ((List.prefix_append front [name]).trans within)).symm
  rw [← taken]
  exact above front.length shorter

/-- A path without `..` leads to the file at its place. -/
theorem IsGrounded.octets?_of_plain (grounded : tree.IsGrounded) {path : Path}
    {octets : List UInt8} (plain : ".." ∉ path.names)
    (file : tree.fileAt? path.place = some octets) : tree.octets? path = some octets := by
  have entry : (tree.entryAt? path.place).isSome = true := by
    rw [fileAt?_eq_some_iff.1 file]
    rfl
  have led := (grounded path.place octets file).follow_self entry
  rw [octets?_eq, ← Path.place_of_plain plain, led, Option.bind_some, file]

/-- A path without `..` to a file that was not touched led there before. -/
theorem Grows.octets?_of_plain {touched : List String → Prop} (grows : Grows touched tree next)
    (grounded : tree.IsGrounded) {path : Path} {octets : List UInt8} (plain : ".." ∉ path.names)
    (untouched : ¬touched path.place) (file : next.octets? path = some octets) :
    tree.octets? path = some octets := by
  rw [octets?_eq] at file
  obtain ⟨place, led, there⟩ := Option.bind_eq_some_iff.1 file
  rw [← follow_eq_place led, grows.others _ untouched] at there
  exact grounded.octets?_of_plain plain there

theorem IsStanding.grow {touched : List String → Prop} (grows : Grows touched tree next)
    {place : List String} (standing : tree.IsStanding place) : next.IsStanding place :=
  ⟨standing.plain, fun front name within =>
    grows.directories front (standing.above front name within)⟩

/-! ## New entries -/

theorem mem_setEntry {place : List String} {entry : FileEntry} {old : List String × FileEntry}
    (member : old ∈ (tree.setEntry place entry).entries) (named : old.1 = place) :
    old = (place, entry) := by
  unfold setEntry at member
  split at member
  · obtain ⟨before, -, rfl⟩ := List.mem_map.1 member
    by_cases same : before.1 = place
    · rw [if_pos (beq_iff_eq.2 same)]
    · rw [if_neg (by rwa [beq_iff_eq])] at named
      exact absurd named same
  · rename_i missing
    rcases List.mem_append.1 member with among | last
    · refine absurd (List.any_eq_true.2 ⟨old, among, ?_⟩) missing
      rwa [beq_iff_eq]
    · exact List.mem_singleton.1 last

theorem any_setEntry (tree : FileTree) (place : List String) (entry : FileEntry) :
    (tree.setEntry place entry).entries.any (·.1 == place) = true := by
  rw [List.any_eq_true]
  unfold setEntry
  split
  · rename_i there
    obtain ⟨old, member, same⟩ := List.any_eq_true.1 there
    exact ⟨(place, entry), List.mem_map.2 ⟨old, member, if_pos same⟩, beq_self_eq_true place⟩
  · exact ⟨(place, entry), List.mem_append_right _ List.mem_cons_self, beq_self_eq_true place⟩

theorem setEntry_again (tree : FileTree) (place : List String) (entry : FileEntry) :
    (tree.setEntry place entry).setEntry place entry = tree.setEntry place entry := by
  have kept : (tree.setEntry place entry).entries.map
      (fun old => if old.1 == place then (place, entry) else old) =
        (tree.setEntry place entry).entries := by
    refine (List.map_congr_left fun old member => ?_).trans (List.map_id _)
    by_cases same : old.1 = place
    · rw [if_pos (beq_iff_eq.2 same), mem_setEntry member same]
      rfl
    · rw [if_neg (by rwa [beq_iff_eq])]
      rfl
  rw [setEntry, if_pos (any_setEntry tree place entry), kept]

theorem grows_setEntry_directory {place : List String} (absent : tree.entryAt? place = none) :
    Grows (fun _ => False) tree (tree.setEntry place .directory) := by
  have named : place ≠ [] := by
    rintro rfl
    cases absent
  have apart : ∀ other, other ≠ place →
      (tree.setEntry place .directory).entryAt? other = tree.entryAt? other := by
    intro other distinct
    rw [entryAt?_setEntry named, if_neg distinct]
  have noFile : tree.fileAt? place = none := by rw [fileAt?, absent]
  have same : ∀ other, (tree.setEntry place .directory).fileAt? other = tree.fileAt? other := by
    intro other
    by_cases here : other = place
    · rw [here, noFile, fileAt?, entryAt?_setEntry named, if_pos rfl]
    · rw [fileAt?, apart other here, fileAt?]
  refine ⟨disk_setEntry tree place _, fun other directory => ?_, fun other file => ?_,
    fun other _ => same other⟩
  · have distinct : other ≠ place := by
      rintro rfl
      rw [isDirectoryAt, absent] at directory
      cases directory
    rw [isDirectoryAt, apart other distinct]
    exact directory
  · rw [same]
    exact file

theorem grows_setEntry_file {place : List String} (noDirectory : tree.isDirectoryAt place = false)
    (octets : List UInt8) : Grows (· = place) tree (tree.setEntry place (.file octets)) := by
  have named : place ≠ [] := by
    rintro rfl
    cases noDirectory
  have apart : ∀ other, other ≠ place →
      (tree.setEntry place (.file octets)).entryAt? other = tree.entryAt? other := by
    intro other distinct
    rw [entryAt?_setEntry named, if_neg distinct]
  refine ⟨disk_setEntry tree place _, fun other directory => ?_, fun other file => ?_,
    fun other distinct => ?_⟩
  · have distinct : other ≠ place := by
      rintro rfl
      rw [noDirectory] at directory
      cases directory
    rw [isDirectoryAt, apart other distinct]
    exact directory
  · by_cases here : other = place
    · rw [fileAt?, entryAt?_setEntry named, if_pos here]
      rfl
    · rw [fileAt?, apart other here]
      exact file
  · rw [fileAt?, apart other distinct, fileAt?]

/-- Writing to a file that is there touches that file. -/
theorem grows_writeOctets {path : Path} {old : List UInt8} (file : tree.octets? path = some old)
    (octets : List UInt8) : Grows (· = path.place) tree (tree.writeOctets path octets) := by
  rw [octets?_eq] at file
  obtain ⟨place, led, there⟩ := Option.bind_eq_some_iff.1 file
  have noDirectory : tree.isDirectoryAt place = false := by
    rw [isDirectoryAt, fileAt?_eq_some_iff.1 there]
    rfl
  rw [writeOctets_eq led there, follow_eq_place led]
  exact grows_setEntry_file noDirectory _

end FileTree

end Traceability
