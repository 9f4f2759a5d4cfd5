/-
# Traceability.Proofs.Snapshot.Files -- the snapshot of the files of a workspace

`Snapshot.ofFiles` has a node for each of some files: the structure of a text of
the file, under the file's absolute path.  Which node a path finds depends on
the paths of the files alone, not on their texts (`fileNode?_ofFiles`), and the
file it finds is the one that the path names (`listed?_spec`).
-/
import Traceability.Proofs.Path
import Traceability.Proofs.Snapshot.Search
import Traceability.Source.Structure

namespace Traceability

set_option autoImplicit false

/-- The absolute path of a place. -/
def spelling (place : List String) : String := Path.toString ⟨.root, place⟩

/-- The snapshot of files at these places, with the structure of the text that `read` gives. -/
def Snapshot.ofFiles (parser : SourceParser) (read : List String → Text)
    (places : List (List String)) : Snapshot :=
  ⟨places.map fun place => parser.parse (read place) (spelling place)⟩

/-- The place that a path finds among those of the files: the one spelled like the path, else the
first that the path names. -/
def Workspace.listed? (workspace : Workspace) (places : List (List String)) (file : String) :
    Option (List String) :=
  (places.find? fun place => spelling place == file).or
    (places.find? fun place => workspace.sameFile (spelling place) file)

theorem Snapshot.allNodes_ofFiles (parser : SourceParser) (read : List String → Text)
    (places : List (List String)) :
    (Snapshot.ofFiles parser read places).allNodes =
      places.map fun place => parser.parse (read place) (spelling place) := by
  refine Node.walkAll_of_leaves fun node member => ?_
  obtain ⟨place, -, rfl⟩ := List.mem_map.1 member
  rfl

namespace Workspace

variable {workspace : Workspace} {places : List (List String)} {file : String}

theorem fileNode?_ofFiles (parser : SourceParser) (read : List String → Text) :
    workspace.fileNode? (Snapshot.ofFiles parser read places) file =
      (workspace.listed? places file).map fun place =>
        parser.parse (read place) (spelling place) := by
  simp only [fileNode?, Snapshot.allNodes_ofFiles, List.find?_map, listed?, Option.map_or,
    Function.comp_def, SourceParser.parse, Bool.or_self]

/-- **A path finds the file that it names.** -/
theorem listed?_spec {place : List String}
    (proper : ∀ place ∈ places, ∀ name ∈ place, Path.IsName name)
    (found : workspace.listed? places file = some place) :
    place ∈ places ∧ (workspace.resolve file).normalize = ⟨.root, place⟩ := by
  have spelled : ∀ place ∈ places,
      (workspace.resolve (spelling place)).normalize = ⟨.root, place⟩ := by
    intro place member
    have names := proper place member
    rw [spelling, resolve_toString workspace names]
    exact Path.normalize_of_plain fun member => (names _ member).notParent rfl
  rcases Option.or_eq_some_iff.1 found with exact_ | ⟨-, same⟩
  · have member := List.mem_of_find?_eq_some exact_
    have holds := List.find?_some exact_
    rw [beq_iff_eq] at holds
    exact ⟨member, holds ▸ spelled place member⟩
  · have member := List.mem_of_find?_eq_some same
    have holds := List.find?_some same
    rw [sameFile_iff, spelled place member] at holds
    exact ⟨member, holds.symm⟩

end Workspace

end Traceability
