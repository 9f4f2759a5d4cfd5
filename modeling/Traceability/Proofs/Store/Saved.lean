/-
# Traceability.Proofs.Store.Saved -- a store that is saved is loaded again

What is loaded from a path depends on the file there alone, if the disk shows it
(`Store.load_of_octets`), and is well formed.  A store is saved where there is room
for its file and the disk takes its text (`Store.save_eq_ok_iff`); otherwise no more is
left of it than a draft (`Store.leaves_of_unsaved`).  When it is saved, it is loaded as
it was, if its document is one that can be read again (`Store.ReadsBack`,
`Store.load_save`): the file holds the text of the document as it was written, because
that has no carriage returns.
-/
import Traceability.Proofs.FileTree.Saving
import Traceability.Proofs.Json.Equality
import Traceability.Proofs.Json.Writer
import Traceability.Proofs.Store.RoundTrip
import Traceability.Proofs.Text.Utf8
import Traceability.Workspace

namespace Traceability

set_option autoImplicit false

theorem FileTree.ask_eq_ok_iff {tree : FileTree} {path : Path} :
    tree.ask path = .ok () ↔ tree.disk.denies path = none := by
  unfold ask
  split
  · rename_i denied
    simp [denied]
  · rename_i granted
    simp [granted]

namespace Store

variable {tree next : FileTree} {path : Path} {store : Store}

/-- The document of the store is read as it was written. -/
def ReadsBack (halves : Text.Halves) (store : Store) : Prop :=
  Json.read? store.text halves = some store.toJson

instance (halves : Text.Halves) (store : Store) : Decidable (store.ReadsBack halves) :=
  inferInstanceAs (Decidable (Json.read? store.text halves = some store.toJson))

/-- What is loaded from the octets of a file; the path is named in faults alone. -/
def loadOctets (halves : Text.Halves) (path : Path) (octets : List UInt8) : Except Failure Store :=
  match FileTree.textOf? octets with
  | none => .error (.store (.unreadable path.toString .notUtf8))
  | some text =>
      match Json.read? text halves with
      | none => .error (.store (.unreadable path.toString .notJson))
      | some document => (Store.ofJson document).mapError .store

theorem load_of_octets {octets : List UInt8} (shown : tree.disk.Shows path)
    (file : tree.octets? path = some octets) :
    load tree path = loadOctets tree.disk.halves path octets := by
  unfold load loadOctets FileTree.readDocument FileTree.readText
  rw [FileTree.ask_eq_ok_iff.2 shown.answers, if_pos (FileTree.has_of_octets file),
    FileTree.entry?_of_octets file, shown.opens]
  simp only
  cases FileTree.textOf? octets with
  | none => rfl
  | some text =>
      cases read : Json.read? text tree.disk.halves with
      | none => simp [bind, Except.bind, read, throw, throwThe, MonadExceptOf.throw]
      | some document => simp [bind, Except.bind, read]

theorem answers_of_load (loaded : load tree path = .ok store) : tree.disk.denies path = none := by
  obtain ⟨_, asked, -⟩ := bind_eq_ok_iff.1 loaded
  exact FileTree.ask_eq_ok_iff.1 asked

/-- Without a file the store is empty. -/
theorem load_of_missing (answers : tree.disk.denies path = none) (missing : tree.has path = false) :
    load tree path = .ok empty := by
  rw [load, FileTree.ask_eq_ok_iff.2 answers, missing]
  rfl

/-- A store that was loaded comes from a file, or stands for a missing one. -/
theorem eq_empty_or_octets_of_load (loaded : load tree path = .ok store) :
    (tree.has path = false ∧ store = empty) ∨
      ∃ octets, tree.octets? path = some octets ∧
        loadOctets tree.disk.halves path octets = .ok store := by
  have answers := answers_of_load loaded
  by_cases there : tree.has path = true
  · right
    cases entry : tree.entry? path with
    | none => simp [FileTree.has, entry] at there
    | some found =>
        cases found with
        | directory =>
            simp [load, FileTree.ask, answers, there, FileTree.readDocument, FileTree.readText,
              entry, bind, Except.bind] at loaded
        | file octets =>
            have file : tree.octets? path = some octets := by rw [FileTree.octets?, entry]
            cases opens : tree.disk.hides path with
            | none =>
                exact ⟨octets, file, (load_of_octets ⟨answers, opens⟩ file).symm.trans loaded⟩
            | some reason =>
                simp [load, FileTree.ask, answers, there, FileTree.readDocument, FileTree.readText,
                  entry, opens, bind, Except.bind] at loaded
  · have missing := eq_false_of_ne_true there
    rw [load_of_missing answers missing, Except.ok.injEq] at loaded
    exact .inl ⟨missing, loaded.symm⟩

theorem wellFormed_of_load (loaded : load tree path = .ok store) : store.WellFormed := by
  rcases eq_empty_or_octets_of_load loaded with ⟨-, rfl⟩ | ⟨octets, -, read⟩
  · exact wellFormed_empty
  · unfold loadOctets at read
    split at read
    · cases read
    · split at read
      · cases read
      · exact wellFormed_of_ofJson (mapError_eq_ok_iff.1 read)

/-! ## Saving -/

theorem not_mem_text (store : Store) : '\r' ∉ store.text := by
  rw [text, List.mem_append, not_or]
  exact ⟨Json.not_mem_render .plain store.toJson, by decide⟩

/-- A store is saved where there is room for its file, the disk takes its draft, and lets it have the
name of the file. -/
theorem save_eq_ok_iff : save tree path store = .ok next ↔
    tree.Admits path ∧
      (tree.disk.Writes ((tree.makeDirectories path.parent).draft path) store.text ∧
        tree.disk.refuses path = none) ∧
      next = tree.saveOctets path (Text.Utf8.encode store.text) := by
  rw [← (FileTree.grows_makeDirectories tree path.parent).disk]
  simp only [save, FileTree.Admits, FileTree.saveOctets]
  generalize tree.makeDirectories path.parent = made
  constructor
  · intro saved
    split at saved
    · split at saved
      · cases saved
      · cases saved
      · rename_i done unhindered
        split at saved
        · rename_i room
          rw [Except.ok.injEq] at saved
          exact ⟨room, ⟨FileTree.writes_of_fault_eq_none done, unhindered⟩, saved.symm⟩
        · cases saved
    · cases saved
  · rintro ⟨room, ⟨writes, unhindered⟩, rfl⟩
    rw [if_pos (FileTree.parent_of_hasRoom room), FileTree.write_of_writes writes]
    simp only [unhindered, room, if_true]
    rfl

/-- A store that is saved is the only file that changes. -/
theorem eq_saveOctets_of_save (saved : save tree path store = .ok next) :
    tree.Admits path ∧ next = tree.saveOctets path (Text.Utf8.encode store.text) := by
  obtain ⟨admits, -, same⟩ := save_eq_ok_iff.1 saved
  exact ⟨admits, same⟩

/-- What is left where a store could not be saved: its directory, as far as that could be made, and
perhaps a draft. -/
inductive Leaves (tree : FileTree) (path : Path) : FileTree → Prop where
  | directory : Leaves tree path (tree.makeDirectories path.parent)
  | draft (parent : FileTree.entry? (tree.makeDirectories path.parent) path.parent = some .directory)
      (octets : List UInt8) : Leaves tree path ((tree.makeDirectories path.parent).saveOctets
        ((tree.makeDirectories path.parent).draft path) octets)

theorem leaves_of_unsaved {unsaved : Unsaved} (fails : save tree path store = .error unsaved) :
    Leaves tree path unsaved.tree := by
  have left : FileTree.entry? (tree.makeDirectories path.parent) path.parent = some .directory →
      Leaves tree path ((tree.makeDirectories path.parent).write
        ((tree.makeDirectories path.parent).draft path) store.text).tree := by
    intro parent
    have drafts : ∀ octets, Leaves tree path ((tree.makeDirectories path.parent).writeOctets
        ((tree.makeDirectories path.parent).draft path) octets) := by
      intro octets
      have leaves := Leaves.draft parent octets
      rwa [FileTree.saveOctets, FileTree.makeDirectories_draft parent] at leaves
    have step := FileTree.write_step (tree.makeDirectories path.parent)
      ((tree.makeDirectories path.parent).draft path) store.text
    generalize FileTree.write _ _ store.text = drafting at step ⊢
    cases step with
    | refused reason => exact .directory
    | lost octets loses empties => exact drafts octets
    | done writes => exact drafts _
  simp only [save] at fails
  split at fails
  · rename_i parent
    split at fails
    · cases fails
      exact left parent
    · cases fails
      exact left parent
    · split at fails
      · cases fails
      · cases fails
        exact left parent
  · cases fails
    exact .directory

/-- Nothing changes but for a draft where nothing was. -/
theorem Leaves.grows (leaves : Leaves tree path next) : FileTree.Grows
    (fun place => tree.entryAt? place = none ∧ FileTree.IsDraftOf path place) tree next := by
  have made := FileTree.grows_makeDirectories tree path.parent
  cases leaves with
  | directory => exact made.mono fun _ => False.elim
  | draft parent octets =>
      refine (made.mono fun _ => False.elim).trans
        ((FileTree.grows_saveOctets (FileTree.admits_draft parent) octets).mono ?_)
      rintro place rfl
      refine ⟨?_, FileTree.isDraftOf_draft parent⟩
      rw [← Option.not_isSome_iff_eq_none]
      intro there
      have still := made.entries there
      rw [FileTree.entryAt?_draft parent] at still
      cases still

/-- **A store that has been saved is loaded as it was.** -/
theorem load_save (shown : tree.disk.Shows path) (saved : save tree path store = .ok next)
    (wellFormed : store.WellFormed) (readsBack : store.ReadsBack tree.disk.halves) :
    load next path = .ok store := by
  obtain ⟨admits, rfl⟩ := eq_saveOctets_of_save saved
  have disk := (FileTree.grows_saveOctets admits (Text.Utf8.encode store.text)).disk
  rw [load_of_octets (by rwa [disk]) (FileTree.octets?_saveOctets admits _), loadOctets,
    FileTree.textOf?_encode store.not_mem_text, disk]
  simp only [show Json.read? store.text tree.disk.halves = some store.toJson from readsBack]
  rw [mapError_eq_ok_iff, ofJson_toJson wellFormed]

/-! ## Documents -/

/-- The document of a broken link to a file that is to have a tag. -/
def linkDocument (name file tag : String) : Json :=
  .object [("matrix_id", .string name), ("layer1_sources", .array [.string "R1"]),
    ("layer3_targets", .array [.object [("file_path", .string file), ("language", .string "python"),
      ("expected_tag", .string tag)]]), ("status", .string "BROKEN")]

/-- The text of a store that says nothing but its links. -/
def linksText (links : List Json) : Text := Json.render .oneLine (.object [("links", .array links)])

end Store

end Traceability
