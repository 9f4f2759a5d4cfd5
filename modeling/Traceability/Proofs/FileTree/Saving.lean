/-
# Traceability.Proofs.FileTree.Saving -- a file that is saved with its directory

`saveOctets` makes the directory of a file and writes it.  Where there is room for the
file then (`Admits`), it is there afterwards (`octets?_saveOctets`), nothing else is
touched (`grows_saveOctets`), and doing it again changes nothing (`saveOctets_again`).
There is room at a path that leads to a file (`admits_of_octets`).

What appears besides the file are directories, and they are there as soon as the
directory of the file is made (`has_saveOctets`); making it again makes nothing more
(`makeDirectories_again`).  If the file was there before, every path leads where it
led (`follow_saveOctets_of_octets`).

Where the directory of a path is there, it admits a draft beside it, at a place where
nothing lies and which is not that of the path (`admits_draft`, `entryAt?_draft`,
`place_draft_ne`).
-/
import Traceability.Proofs.FileTree.Growth

namespace Traceability.FileTree

set_option autoImplicit false

variable {tree : FileTree}

/-! ## Directories -/

theorem grows_makeDirectoriesFrom (tree : FileTree) (place names : List String) :
    Grows (fun _ => False) tree (tree.makeDirectoriesFrom place names) := by
  induction names generalizing tree place with
  | nil => exact .refl tree
  | cons name rest ih =>
      rw [makeDirectoriesFrom]
      split
      · exact ih tree _
      · simp only
        split
        · exact ih tree _
        · exact .refl tree
        · rename_i absent
          split
          · exact .refl tree
          · exact (grows_setEntry_directory absent).trans (ih _ _)

theorem grows_makeDirectories (tree : FileTree) (path : Path) :
    Grows (fun _ => False) tree (tree.makeDirectories path) :=
  grows_makeDirectoriesFrom tree [] path.names

/-- Where names lead already, no directory is made. -/
theorem makeDirectoriesFrom_of_follow {place names found : List String}
    (led : tree.follow place names = some found) : tree.makeDirectoriesFrom place names = tree := by
  induction names generalizing place with
  | nil => rfl
  | cons name rest ih =>
      rw [follow] at led
      split at led
      · cases led
      · rw [makeDirectoriesFrom]
        by_cases up : name = ".."
        · rw [if_pos up] at led ⊢
          exact ih led
        · rw [if_neg up] at led ⊢
          split at led
          · rename_i there
            obtain ⟨entry, found⟩ := Option.isSome_iff_exists.1 there
            cases entry with
            | directory =>
                simp only [found]
                exact ih led
            | file octets => simp only [found]
          · cases led

theorem makeDirectories_of_follow {path : Path} {found : List String}
    (led : tree.follow [] path.names = some found) : tree.makeDirectories path = tree :=
  makeDirectoriesFrom_of_follow led

/-- What has been made is not made again. -/
theorem makeDirectoriesFrom_again (tree : FileTree) (place names : List String) :
    (tree.makeDirectoriesFrom place names).makeDirectoriesFrom place names =
      tree.makeDirectoriesFrom place names := by
  induction names generalizing tree place with
  | nil => rfl
  | cons name rest ih =>
      by_cases up : name = ".."
      · simp only [makeDirectoriesFrom, if_pos up]
        exact ih tree _
      · have walk : ∀ tree : FileTree, tree.entryAt? (place ++ [name]) = some .directory →
            tree.makeDirectoriesFrom place (name :: rest) =
              tree.makeDirectoriesFrom (place ++ [name]) rest := by
          intro tree there
          rw [makeDirectoriesFrom, if_neg up]
          simp only [there]
        have again : ∀ tree : FileTree, tree.entryAt? (place ++ [name]) = some .directory →
            (tree.makeDirectoriesFrom (place ++ [name]) rest).makeDirectoriesFrom place
                (name :: rest) = tree.makeDirectoriesFrom (place ++ [name]) rest := by
          intro tree there
          have kept := (grows_makeDirectoriesFrom tree (place ++ [name]) rest).directories _
            (decide_eq_true there)
          rw [walk _ (of_decide_eq_true kept), ih]
        cases entry : tree.entryAt? (place ++ [name]) with
        | none =>
            by_cases refused : (tree.disk.refuses ⟨.root, place ++ [name]⟩).isSome = true
            · have stopped : tree.makeDirectoriesFrom place (name :: rest) = tree := by
                rw [makeDirectoriesFrom, if_neg up]
                simp only [entry, refused, if_true]
              rw [stopped, stopped]
            · have made : tree.makeDirectoriesFrom place (name :: rest) =
                  (tree.setEntry (place ++ [name]) .directory).makeDirectoriesFrom
                    (place ++ [name]) rest := by
                rw [makeDirectoriesFrom, if_neg up]
                simp only [entry, refused, Bool.false_eq_true, if_false]
              rw [made]
              exact again _ (by rw [entryAt?_setEntry (by simp), if_pos rfl])
        | some found =>
            cases found with
            | directory =>
                rw [walk _ entry]
                exact again _ entry
            | file octets =>
                have stopped : tree.makeDirectoriesFrom place (name :: rest) = tree := by
                  rw [makeDirectoriesFrom, if_neg up]
                  simp only [entry]
                rw [stopped, stopped]

theorem makeDirectories_again (tree : FileTree) (path : Path) :
    (tree.makeDirectories path).makeDirectories path = tree.makeDirectories path :=
  makeDirectoriesFrom_again tree [] path.names

/-! ## Room for a file -/

/-- There is room for a file at the path once its directory is made. -/
def Admits (tree : FileTree) (path : Path) : Prop :=
  (tree.makeDirectories path.parent).hasRoom path = true

theorem hasRoom_iff {path : Path} : tree.hasRoom path = true ↔
    ∃ front last directory, path.names = front ++ [last] ∧ last ≠ ".." ∧
      tree.follow [] front = some directory ∧ tree.isDirectoryAt directory = true ∧
      tree.isDirectoryAt (directory ++ [last]) = false := by
  unfold hasRoom
  rcases List.eq_nil_or_concat path.names with empty | ⟨front, last, names⟩
  · simp [empty]
  · rw [List.concat_eq_append] at names
    rw [Path.parent, names, List.getLast?_concat, List.dropLast_concat]
    constructor
    · intro room
      split at room
      · rename_i taken directory found led
        cases found
        simp only [Bool.and_eq_true, bne_iff_ne, ne_eq, Bool.not_eq_true'] at room
        exact ⟨front, last, directory, rfl, room.1.1, led, room.1.2, room.2⟩
      · cases room
    · rintro ⟨others, other, directory, same, down, led, isDirectory, free⟩
      obtain ⟨rfl, sameLast⟩ := List.append_inj' same rfl
      cases sameLast
      simp only [led, isDirectory, free, Bool.not_false, Bool.and_true, bne_iff_ne, ne_eq]
      exact down

theorem parent_names {path : Path} {front : List String} {last : String}
    (names : path.names = front ++ [last]) : path.parent.names = front := by
  rw [Path.parent, names, List.dropLast_concat]

theorem parent_of_hasRoom {path : Path} (room : tree.hasRoom path = true) :
    tree.entry? path.parent = some .directory := by
  obtain ⟨front, last, directory, names, -, ledTo, isDirectory, -⟩ := hasRoom_iff.1 room
  unfold entry?
  rw [parent_names names, ledTo]
  exact of_decide_eq_true isDirectory

/-- The tree with a file at a path, its directory made if need be. -/
def saveOctets (tree : FileTree) (path : Path) (octets : List UInt8) : FileTree :=
  (tree.makeDirectories path.parent).writeOctets path octets

theorem place_of_split {path : Path} {front directory : List String} {last : String}
    (names : path.names = front ++ [last]) (down : last ≠ "..")
    (ledTo : tree.follow [] front = some directory) : path.place = directory ++ [last] := by
  have folded := ((IsStanding.root tree).follow ledTo).2
  have pushed : ∀ before, Path.pushName true before last = last :: before := fun _ => if_neg down
  rw [List.reverse_nil] at folded
  rw [Path.place, names, List.foldl_append, List.foldl_cons, List.foldl_nil, pushed,
    List.reverse_cons, folded]

/-- Nothing has to be made for a file that is there. -/
theorem makeDirectories_of_octets {path : Path} {octets : List UInt8}
    (file : tree.octets? path = some octets) : tree.makeDirectories path.parent = tree := by
  obtain ⟨front, last, directory, names, ledTo, -, -⟩ := file_split file
  exact makeDirectories_of_follow (by rw [parent_names names]; exact ledTo)

/-- A path that leads to a file admits one. -/
theorem admits_of_octets {path : Path} {octets : List UInt8}
    (file : tree.octets? path = some octets) : tree.Admits path := by
  rw [Admits, makeDirectories_of_octets file, hasRoom_iff]
  obtain ⟨front, last, directory, names, ledTo, whole, there⟩ := file_split file
  rw [names, follow_append, ledTo, Option.bind_some] at whole
  obtain ⟨isDirectory, ⟨-, found⟩ | ⟨down, -⟩⟩ := follow_cons whole
  · -- Going back does not end below where it started.
    have short := congrArg List.length (Option.some.inj found)
    rw [List.length_dropLast, List.length_append, List.length_singleton] at short
    omega
  · refine ⟨front, last, directory, names, down, ledTo, isDirectory, ?_⟩
    rw [isDirectoryAt, fileAt?_eq_some_iff.1 there]
    rfl

section Save

variable {path : Path} (admits : tree.Admits path) (octets : List UInt8)
include admits

/-- Saving makes the directory and sets one entry, at the place of the path. -/
theorem saveOctets_eq : tree.saveOctets path octets =
    (tree.makeDirectories path.parent).setEntry path.place (.file octets) ∧
      (tree.makeDirectories path.parent).isDirectoryAt path.place = false := by
  obtain ⟨front, last, directory, names, down, ledTo, isDirectory, free⟩ := hasRoom_iff.1 admits
  have name : path.name = last := by
    rw [Path.name, names, List.getLast?_concat, Option.getD_some]
  rw [place_of_split names down ledTo]
  refine ⟨?_, free⟩
  simp only [saveOctets, writeOctets, parent_names names, ledTo, name]

theorem grows_saveOctets : Grows (· = path.place) tree (tree.saveOctets path octets) := by
  obtain ⟨saved, free⟩ := saveOctets_eq admits octets
  rw [saved]
  exact ((grows_makeDirectoriesFrom tree [] _).mono fun _ => False.elim).trans
    (grows_setEntry_file free _)

theorem grows_made : Grows (· = path.place) (tree.makeDirectories path.parent)
    (tree.saveOctets path octets) := by
  obtain ⟨saved, free⟩ := saveOctets_eq admits octets
  rw [saved]
  exact grows_setEntry_file free _

theorem fileAt?_saveOctets :
    (tree.saveOctets path octets).fileAt? path.place = some octets := by
  obtain ⟨saved, free⟩ := saveOctets_eq admits octets
  have named : path.place ≠ [] := by
    intro root
    rw [root] at free
    cases free
  rw [saved, fileAt?, entryAt?_setEntry named, if_pos rfl]

theorem follow_saveOctets : (tree.saveOctets path octets).follow [] path.names = some path.place := by
  have grows := grows_made admits octets
  have there : ((tree.saveOctets path octets).entryAt? path.place).isSome = true := by
    rw [fileAt?_eq_some_iff.1 (fileAt?_saveOctets admits octets)]
    rfl
  obtain ⟨front, last, directory, names, down, ledTo, isDirectory, -⟩ := hasRoom_iff.1 admits
  have place := place_of_split names down ledTo
  rw [place] at there ⊢
  rw [names, follow_append, grows.follow ledTo, Option.bind_some]
  exact follow_last (grows.directories _ isDirectory) down there

/-- The octets are in the file afterwards. -/
theorem octets?_saveOctets :
    (tree.saveOctets path octets).octets? path = some octets := by
  rw [octets?_eq, follow_saveOctets admits octets, Option.bind_some, fileAt?_saveOctets admits octets]

/-- Saving a file where it has been saved changes nothing. -/
theorem saveOctets_again :
    (tree.saveOctets path octets).saveOctets path octets = tree.saveOctets path octets := by
  have ledTo : ∃ directory, (tree.saveOctets path octets).follow [] path.parent.names =
      some directory := by
    have grows := grows_made admits octets
    obtain ⟨front, last, directory, names, down, ledTo, -⟩ := hasRoom_iff.1 admits
    rw [parent_names names]
    exact ⟨directory, grows.follow ledTo⟩
  obtain ⟨directory, ledTo⟩ := ledTo
  have second := saveOctets_eq (admits_of_octets (octets?_saveOctets admits octets)) octets
  rw [makeDirectories_of_follow ledTo] at second
  rw [second.1, (saveOctets_eq admits octets).1, setEntry_again]

theorem isGrounded_saveOctets (grounded : tree.IsGrounded) :
    (tree.saveOctets path octets).IsGrounded := by
  have grows := grows_saveOctets admits octets
  intro place found file
  by_cases here : place = path.place
  · have ledTo := follow_saveOctets admits octets
    rw [here]
    exact ((IsStanding.root _).follow ledTo).1
  · rw [grows.others place here] at file
    exact (grounded place found file).grow grows

theorem entryAt?_saveOctets {place : List String} (apart : place ≠ path.place) :
    (tree.saveOctets path octets).entryAt? place =
      (tree.makeDirectories path.parent).entryAt? place := by
  obtain ⟨saved, free⟩ := saveOctets_eq admits octets
  have named : path.place ≠ [] := by
    intro root
    rw [root] at free
    cases free
  rw [saved, entryAt?_setEntry named, if_neg apart]

/-- Where names lead after saving, they led once the directory was made, unless they lead to the
file that was saved. -/
theorem follow_made {place names found : List String} (other : found ≠ path.place)
    (led : (tree.saveOctets path octets).follow place names = some found) :
    (tree.makeDirectories path.parent).follow place names = some found := by
  have noDirectory : (tree.saveOctets path octets).isDirectoryAt path.place = false := by
    rw [isDirectoryAt, fileAt?_eq_some_iff.1 (fileAt?_saveOctets admits octets)]
    rfl
  induction names generalizing place with
  | nil => exact led
  | cons name rest ih =>
      have apart : place ≠ path.place := by
        rintro rfl
        rw [(follow_cons led).1] at noDirectory
        cases noDirectory
      rw [follow, isDirectoryAt, entryAt?_saveOctets admits octets apart, ← isDirectoryAt] at led
      rw [follow]
      split at led
      · cases led
      · rename_i directory
        rw [if_neg directory]
        by_cases up : name = ".."
        · rw [if_pos up] at led ⊢
          exact ih led
        · rw [if_neg up] at led ⊢
          split at led
          · rename_i there
            by_cases here : place ++ [name] = path.place
            · -- A file is the end of the way.
              cases rest with
              | nil => exact absurd ((Option.some.inj led).symm.trans here) other
              | cons next later =>
                  rw [← here, (follow_cons led).1] at noDirectory
                  cases noDirectory
            · rw [entryAt?_saveOctets admits octets here] at there
              rw [if_pos there]
              exact ih led
          · cases led

/-- Apart from the file itself, saving makes nothing appear that making its directory does not. -/
theorem has_saveOctets {other : Path} (apart : other.place ≠ path.place) :
    (tree.saveOctets path octets).has other = (tree.makeDirectories path.parent).has other := by
  have grows := grows_made admits octets
  rw [has, has, Bool.eq_iff_iff]
  simp only [Option.isSome_iff_exists, entry?, Option.bind_eq_some_iff]
  constructor
  · rintro ⟨entry, place, led, there⟩
    have distinct : place ≠ path.place := by rwa [← follow_eq_place led]
    rw [entryAt?_saveOctets admits octets distinct] at there
    exact ⟨entry, place, follow_made admits octets distinct led, there⟩
  · rintro ⟨entry, place, led, there⟩
    obtain ⟨now, thereNow⟩ := Option.isSome_iff_exists.1 (grows.entries (by rw [there]; rfl))
    exact ⟨now, place, grows.follow led, thereNow⟩

end Save

/-- Where a file is saved that is there, every path leads where it led. -/
theorem follow_saveOctets_of_octets {path : Path} {old : List UInt8}
    (file : tree.octets? path = some old) (octets : List UInt8) (place names : List String) :
    (tree.saveOctets path octets).follow place names = tree.follow place names := by
  obtain ⟨front, last, directory, -, -, led, there⟩ := file_split file
  rw [saveOctets, makeDirectories_of_octets file, writeOctets_eq led there,
    follow_setEntry there]

/-! ## Drafts -/

theorem mem_namesIn {directory : List String} {name : String}
    (there : (tree.entryAt? (directory ++ [name])).isSome = true) :
    name ∈ tree.namesIn directory := by
  obtain ⟨entry, found⟩ := Option.isSome_iff_exists.1 there
  rw [entryAt?, if_neg (by simp)] at found
  obtain ⟨before, after, split, -⟩ := List.lookup_eq_some_iff.1 found
  refine List.mem_filterMap.2 ⟨(directory ++ [name], entry), ?_, ?_⟩
  · rw [split]
    exact List.mem_append_right _ List.mem_cons_self
  · rw [if_pos List.dropLast_concat, List.getLast?_concat]

/-- The place is one beside that of the path, with the name of a draft. -/
def IsDraftOf (path : Path) (place : List String) : Prop :=
  ∃ letters, place = path.parent.place ++ [draftName (String.ofList path.stem) letters]

theorem getLast?_draftName (stem letters : String) :
    (draftName stem letters).toList.getLast? = some 'p' := by
  have dots : (".tmp" : String).toList = ".tm".toList ++ ['p'] := rfl
  rw [draftName, String.toList_append, dots, ← List.append_assoc, List.getLast?_concat]

theorem draftName_ne {name : String} (ends : name.toList.getLast? ≠ some 'p')
    (stem letters : String) : draftName stem letters ≠ name := by
  rintro rfl
  exact ends (getLast?_draftName stem letters)

section Draft

variable {path : Path} (parent : tree.entry? path.parent = some .directory)
include parent

/-- A draft has a new name in the directory of the path. -/
theorem draft_eq : ∃ letters,
    tree.follow [] path.parent.names = some path.parent.place ∧
      tree.isDirectoryAt path.parent.place = true ∧
      (tree.draft path).names =
        path.parent.names ++ [draftName (String.ofList path.stem) letters] ∧
      draftName (String.ofList path.stem) letters ≠ path.name ∧
      tree.entryAt? (path.parent.place ++ [draftName (String.ofList path.stem) letters]) = none := by
  obtain ⟨directory, ledTo, there⟩ := Option.bind_eq_some_iff.1 parent
  obtain rfl := follow_eq_place ledTo
  have new := tree.disk.drafts.isNew (String.ofList path.stem)
    (path.name :: tree.namesIn path.parent.place)
  rw [List.mem_cons, not_or] at new
  refine ⟨_, ledTo, decide_eq_true there, ?_, new.1, ?_⟩
  · rw [draft, ledTo]
    rfl
  · rw [← Option.not_isSome_iff_eq_none]
    exact fun found => new.2 (mem_namesIn found)

theorem isDraftOf_draft : IsDraftOf path (tree.draft path).place := by
  obtain ⟨letters, ledTo, -, names, -⟩ := draft_eq parent
  exact ⟨letters, place_of_split names (draftName_ne (by decide) _ _) ledTo⟩

/-- Nothing lies where a draft is written. -/
theorem entryAt?_draft : tree.entryAt? (tree.draft path).place = none := by
  obtain ⟨letters, ledTo, -, names, -, new⟩ := draft_eq parent
  rw [place_of_split names (draftName_ne (by decide) _ _) ledTo, new]

theorem makeDirectories_draft : tree.makeDirectories (tree.draft path).parent = tree := by
  obtain ⟨letters, ledTo, -, names, -⟩ := draft_eq parent
  exact makeDirectories_of_follow (by rw [parent_names names]; exact ledTo)

theorem admits_draft : tree.Admits (tree.draft path) := by
  obtain ⟨letters, ledTo, isDirectory, names, -, new⟩ := draft_eq parent
  rw [Admits, makeDirectories_draft parent, hasRoom_iff]
  refine ⟨_, _, _, names, draftName_ne (by decide) _ _, ledTo, isDirectory, ?_⟩
  rw [isDirectoryAt, new]
  rfl

/-- A draft is not written over the file itself. -/
theorem place_draft_ne : path.place ≠ (tree.draft path).place := by
  obtain ⟨letters, ledTo, -, names, other, -⟩ := draft_eq parent
  rw [place_of_split names (draftName_ne (by decide) _ _) ledTo]
  rcases List.eq_nil_or_concat path.names with root | ⟨front, last, names⟩
  · rw [Path.place, root]
    simp
  · rw [List.concat_eq_append] at names
    rw [parent_names names] at ledTo
    by_cases up : last = ".."
    · -- Going back, the path ends above its directory.
      have standing := (IsStanding.root tree).follow ledTo
      rw [List.reverse_nil] at standing
      have above : path.place = path.parent.place.dropLast := by
        rw [Path.place, names, List.foldl_append, List.foldl_cons, List.foldl_nil, up,
          ← List.reverse_reverse (List.foldl _ _ _), standing.2, standing.1.pushName_up,
          List.reverse_reverse]
      rw [above]
      intro same
      have lengths := congrArg List.length same
      rw [List.length_append, List.length_dropLast, List.length_singleton] at lengths
      omega
    · rw [place_of_split names up ledTo]
      have name : path.name = last := by
        rw [Path.name, names, List.getLast?_concat, Option.getD_some]
      rw [name] at other
      intro same
      exact other (List.singleton_inj.1 (List.append_cancel_left same)).symm

end Draft

end Traceability.FileTree
