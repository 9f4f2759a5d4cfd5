/-
# Traceability.Proofs.Workspace.Spelling -- a file under any spelling of its path

Two paths name the same file of a workspace when their normal forms, seen from its root,
are equal.  So this is an equivalence, and whatever looks a file up through it does not
see how the path is spelled (`Workspace.TreatsAlike`): the node of the file in a
snapshot, as long as none is found by the very spelling, and the targets that a
simulation tracks.

`Workspace.sameFile_spellings` puts this together with the spellings of one path.  Paths
made of ordinary names alone have no other spelling of that kind: their names are told
apart.  A separator behind a path without names is no other spelling of it
(`separator_behind_no_name`).
-/
import Mathlib.Data.List.Forall2
import Traceability.Proofs.Patch.Written
import Traceability.Proofs.Path.Spelling
import Traceability.Simulation

namespace Traceability

set_option autoImplicit false

/-- No node of the snapshot has this very text as its identifier or its path. -/
def Snapshot.IsFree (snapshot : Snapshot) (file : String) : Prop :=
  ∀ node ∈ snapshot.allNodes, node.id ≠ file ∧ node.filePath ≠ file

/-- Targets of links that differ at most in the spelling of their path. -/
structure Respelled (pair other : Link × Target) : Prop where
  link : other.1.matrixId = pair.1.matrixId
  path : Path.SpelledAlike pair.2.filePath other.2.filePath
  target : other.2 = { pair.2 with filePath := other.2.filePath }

namespace Workspace

/-- Two spellings that nothing tells apart which looks for a file in the workspace. -/
structure TreatsAlike (workspace : Workspace) (a b : String) : Prop where
  sameFile : ∀ other, workspace.sameFile a other = workspace.sameFile b other
  /-- If both lead somewhere, they lead to the same place. -/
  place : ∀ tree here there, workspace.place? tree a = some here →
    workspace.place? tree b = some there → here = there
  node : ∀ snapshot : Snapshot, snapshot.IsFree a → snapshot.IsFree b →
    workspace.fileNode? snapshot a = workspace.fileNode? snapshot b
  tracked : ∀ simulator : Simulator, simulator.workspace = workspace → ∀ store,
    simulator.tracked store a = simulator.tracked store b
  /-- Nor does it matter how the targets of a store are spelled. -/
  targets : ∀ simulator : Simulator, simulator.workspace = workspace → ∀ store next : Store,
    List.Forall₂ Respelled store.targets next.targets →
      List.Forall₂ Respelled (simulator.tracked store a) (simulator.tracked next b)

variable {workspace : Workspace} {a b : String}

/-! ## One file -/

theorem sameFile_equivalence (workspace : Workspace) :
    Equivalence fun a b => workspace.sameFile a b = true where
  refl a := by rw [sameFile_iff]
  symm same := by
    rw [sameFile_iff] at same ⊢
    exact same.symm
  trans first second := by
    rw [sameFile_iff] at first second ⊢
    exact first.trans second

theorem sameFile_congr {c d : String} (left : workspace.sameFile a b = true)
    (right : workspace.sameFile c d = true) : workspace.sameFile a c = workspace.sameFile b d := by
  rw [sameFile_iff] at left right
  rw [Bool.eq_iff_iff, sameFile_iff, sameFile_iff, left, right]

theorem sameFile_of_spelledAlike (alike : Path.SpelledAlike a b) : workspace.sameFile a b = true := by
  rw [sameFile_iff]
  exact alike.normalize_join workspace.root

/-- A path and what it is seen from the root. -/
theorem sameFile_join (absolute : workspace.root.isAbsolute = true)
    (spelled : ∃ root, workspace.root = Path.ofString root) (path : String) :
    workspace.sameFile path (workspace.root.join (Path.ofString path)).toString = true := by
  have readable : (workspace.root.join (Path.ofString path)).IsReadable := by
    obtain ⟨root, spelled⟩ := spelled
    rw [spelled]
    exact (Path.isReadable_ofString root).join (Path.isReadable_ofString path)
  have stays : (workspace.root.join (Path.ofString path)).isAbsolute = true := by
    unfold Path.join
    split
    · assumption
    · exact absolute
  rw [sameFile_iff, resolve, resolve, Path.ofString_toString_of_isReadable readable]
  conv_rhs => rw [Path.join, if_pos stays]

/-- Ordinary names stay behind what is left of those of the root. -/
theorem normalize_resolve_intercalate {names : List String}
    (ordinary : ∀ name ∈ names, Path.IsName name) :
    (workspace.resolve ("/".intercalate names)).normalize =
      ⟨workspace.root.anchor, (names.reverse ++
        workspace.root.names.foldl (Path.pushName workspace.root.isAbsolute) []).reverse⟩ := by
  have readable : Path.IsReadable ⟨.relative, names⟩ :=
    fun name member => ⟨(ordinary name member).isKept, (ordinary name member).unbroken⟩
  have plain : ".." ∉ names := fun member => (ordinary ".." member).notParent rfl
  have read := readable.ofString_intercalate "" 0 rfl
  rw [String.empty_append] at read
  rw [resolve, read]
  show Path.normalize ⟨workspace.root.anchor, workspace.root.names ++ names⟩ = _
  rw [Path.normalize, List.foldl_append, Path.foldl_pushName_of_plain plain]
  rfl

theorem sameFile_intercalate_iff {names others : List String}
    (ordinary : ∀ name ∈ names, Path.IsName name) (ordinary' : ∀ name ∈ others, Path.IsName name) :
    workspace.sameFile ("/".intercalate names) ("/".intercalate others) = true ↔ names = others := by
  rw [sameFile_iff, normalize_resolve_intercalate ordinary, normalize_resolve_intercalate ordinary',
    Path.mk.injEq, List.reverse_inj, List.append_left_inj, List.reverse_inj]
  exact and_iff_right rfl

/-! ## Looking for a file -/

/-- A node is looked for by the spelling first, and otherwise by the file. -/
theorem fileNode?_of_isFree {snapshot : Snapshot} (free : snapshot.IsFree a) :
    workspace.fileNode? snapshot a =
      snapshot.allNodes.find? fun node => workspace.sameFile node.filePath a := by
  have none_named : (snapshot.allNodes.find? fun node => node.id == a || node.filePath == a) =
      none := by
    rw [List.find?_eq_none]
    intro node member named
    obtain ⟨otherId, otherPath⟩ := free node member
    rw [Bool.or_eq_true, beq_iff_eq, beq_iff_eq] at named
    exact named.elim otherId otherPath
  rw [fileNode?, none_named, Option.none_or]

theorem treatsAlike_of_sameFile (absolute : workspace.root.isAbsolute = true)
    (same : workspace.sameFile a b = true) : workspace.TreatsAlike a b := by
  have seenAlike : ∀ other, workspace.sameFile other a = workspace.sameFile other b :=
    fun other => sameFile_congr ((sameFile_equivalence workspace).refl other) same
  constructor
  · exact fun other => sameFile_congr same ((sameFile_equivalence workspace).refl other)
  · intro tree here there ledA ledB
    have rooted : workspace.root.anchor ≠ .relative := by
      rwa [Path.isAbsolute, bne_iff_ne] at absolute
    exact ((sameFile_iff_place? ledA ledB rooted).1 same).2
  · intro snapshot freeA freeB
    rw [fileNode?_of_isFree freeA, fileNode?_of_isFree freeB]
    simp only [seenAlike]
  · rintro simulator rfl store
    simp only [Simulator.tracked, seenAlike]
  · rintro simulator rfl store next respelled
    apply List.rel_filter _ respelled
    intro pair other alike
    show simulator.workspace.sameFile pair.2.filePath a = true ↔
      simulator.workspace.sameFile other.2.filePath b = true
    rw [sameFile_congr (sameFile_of_spelledAlike alike.path) same]

/-- **A file is the same under any spelling of its path.**  Being the same file is an equivalence, and
a path is the same file as what it is seen from the root.  Spellings of one path are treated alike
wherever a file is looked for; paths made of ordinary names are the same file only if they have the
same names. -/
theorem sameFile_spellings (workspace : Workspace) (absolute : workspace.root.isAbsolute = true)
    (spelled : ∃ root, workspace.root = Path.ofString root) :
    (Equivalence fun a b => workspace.sameFile a b = true) ∧
    (∀ path, workspace.sameFile path
      (workspace.root.join (Path.ofString path)).toString = true) ∧
    (∀ a b, Path.SpelledAlike a b → workspace.TreatsAlike a b) ∧
    ∀ names others : List String, (∀ name ∈ names, Path.IsName name) →
      (∀ name ∈ others, Path.IsName name) →
      (workspace.sameFile ("/".intercalate names) ("/".intercalate others) = true ↔
        names = others) := by
  refine ⟨sameFile_equivalence workspace, sameFile_join absolute spelled, ?_, ?_⟩
  · intro a b alike
    exact treatsAlike_of_sameFile absolute (sameFile_of_spelledAlike alike)
  · intro names others ordinary ordinary'
    exact sameFile_intercalate_iff ordinary ordinary'

end Workspace

/-- A workspace in a directory right below the root. -/
def shallowWorkspace : Workspace := ⟨Path.ofString "/w", Config.default⟩

/-- The directory itself in front of a path, and a detour within it. -/
theorem sameFile_spellings_detour :
    shallowWorkspace.root.isAbsolute = true ∧
      (∃ root, shallowWorkspace.root = Path.ofString root) ∧
      Path.SpelledAlike "src/f.py" "./src/old/../f.py" ∧
      shallowWorkspace.TreatsAlike "src/f.py" "./src/old/../f.py" ∧
      (∀ name ∈ ["src", "f.py"], Path.IsName name) ∧ (∀ name ∈ ["src", "g.py"], Path.IsName name) ∧
      shallowWorkspace.sameFile ("/".intercalate ["src", "f.py"]) ("/".intercalate ["src", "g.py"]) =
        false := by
  have absolute : shallowWorkspace.root.isAbsolute = true := by decide
  have spelled : ∃ root, shallowWorkspace.root = Path.ofString root := ⟨"/w", rfl⟩
  have here : Path.Respells "src/f.py" "./src/f.py" :=
    @Path.Respells.self 0 [] [['s', 'r', 'c'], ['f', '.', 'p', 'y']] ⟨by decide, by decide⟩
  have old : Path.IsName "old" := ⟨by decide, by decide, by decide, by decide⟩
  have around : Path.Respells "./src/f.py" "./src/old/../f.py" :=
    @Path.Respells.detour 0 [['.'], ['s', 'r', 'c']] [['f', '.', 'p', 'y']]
      ⟨by decide, by decide⟩ "old" old
  have alike : Path.SpelledAlike "src/f.py" "./src/old/../f.py" :=
    .trans _ _ _ (.rel _ _ here) (.rel _ _ around)
  have names : ∀ name ∈ ["src", "f.py", "g.py"], Path.IsName name := by
    simp only [List.forall_mem_cons, List.not_mem_nil, false_implies, implies_true, and_true]
    exact ⟨⟨by decide, by decide, by decide, by decide⟩,
      ⟨by decide, by decide, by decide, by decide⟩, ⟨by decide, by decide, by decide, by decide⟩⟩
  have ordinary : ∀ name ∈ ["src", "f.py"], Path.IsName name :=
    fun name member => names name (List.mem_append_left ["g.py"] member)
  have ordinary' : ∀ name ∈ ["src", "g.py"], Path.IsName name :=
    fun name member => names name (List.cons_subset_cons "src" (List.subset_cons_self _ _) member)
  obtain ⟨-, -, treatsAlike, apart⟩ :=
    Workspace.sameFile_spellings shallowWorkspace absolute spelled
  refine ⟨absolute, spelled, alike, treatsAlike _ _ alike, ordinary, ordinary', ?_⟩
  rw [Bool.eq_false_iff]
  intro same
  exact absurd ((apart _ _ ordinary ordinary').1 same) (by decide)

/-- Behind a path without names a separator is not just another spelling: it makes a root, or another
one. -/
theorem separator_behind_no_name :
    ¬(∀ (workspace : Workspace) (path other : String), workspace.root.isAbsolute = true →
      (∃ root, workspace.root = Path.ofString root) →
      workspace.sameFile (path ++ "/") other = workspace.sameFile path other) ∧
    (shallowWorkspace.sameFile "/" "/" = true ∧ shallowWorkspace.sameFile "//" "/" = false) ∧
    (shallowWorkspace.sameFile "" "" = true ∧ shallowWorkspace.sameFile "/" "" = false) ∧
    (shallowWorkspace.sameFile "//" "//" = true ∧ shallowWorkspace.sameFile "///" "//" = false) := by
  have another : shallowWorkspace.sameFile "//" "/" = false := by decide +kernel
  refine ⟨?_, ⟨by decide +kernel, another⟩, by decide +kernel, by decide +kernel⟩
  intro same
  have there := same shallowWorkspace "/" "/" (by decide) ⟨"/w", rfl⟩
  rw [show "/" ++ "/" = "//" from rfl, another] at there
  exact absurd there (by decide +kernel)

end Traceability
