/-
# Traceability.Proofs.Path -- an absolute path is read as it is spelled

The spelling of a path from the root, through names that a directory can hold,
is read as that very path (`ofString_toString`).  When only the last name is
such a name, it is still the last name that is read (`name_ofString_toString`),
and with it the ending that tells the language of a file.

A path without `..` is its own normal form (`normalize_of_plain`).
-/
import Traceability.Proofs.Text.Lines
import Traceability.Workspace

namespace Traceability

set_option autoImplicit false

namespace Path

/-- A name that a directory can hold. -/
structure IsName (name : String) : Prop where
  nonempty : name ≠ ""
  notItself : name ≠ "."
  notParent : name ≠ ".."
  unbroken : '/' ∉ name.toList

theorem IsName.isKept {name : String} (proper : IsName name) : isKept name = true := by
  rw [Path.isKept, Bool.and_eq_true, bne_iff_ne, bne_iff_ne]
  exact ⟨proper.nonempty, proper.notItself⟩

/-! ## Spelling and reading -/

theorem toList_intercalate (names : List String) :
    ("/".intercalate names).toList = Text.joinWith '/' (names.map String.toList) := by
  induction names with
  | nil => rfl
  | cons name others ih =>
      by_cases last : others = []
      · rw [last, String.intercalate_singleton]
        rfl
      · have mapped : others.map String.toList ≠ [] := by simpa using last
        rw [String.intercalate_cons_of_ne_nil last, String.toList_append, String.toList_append, ih,
          List.map_cons, Text.joinWith_cons '/' _ mapped, List.append_assoc]
        rfl

theorem toList_toString (names : List String) :
    (toString ⟨.root, names⟩).toList = '/' :: Text.joinWith '/' (names.map String.toList) := by
  show ("/" ++ "/".intercalate names).toList = _
  rw [String.toList_append, toList_intercalate]
  rfl

theorem anchorOf_root {names : List String} (proper : ∀ name ∈ names, IsName name) :
    anchorOf ('/' :: Text.joinWith '/' (names.map String.toList)) = .root := by
  have stops : (Text.joinWith '/' (names.map String.toList)).takeWhile (· == '/') = [] := by
    cases names with
    | nil => rfl
    | cons name others =>
        have first := proper name List.mem_cons_self
        cases spelled : name.toList with
        | nil => exact absurd (String.toList_eq_nil_iff.1 spelled) first.nonempty
        | cons c rest =>
            have unbroken := first.unbroken
            rw [spelled, List.mem_cons, not_or] at unbroken
            have other : (c == '/') = false := beq_eq_false_iff_ne.2 (Ne.symm unbroken.1)
            rw [List.map_cons, spelled, Text.joinWith_cons_cons, List.takeWhile_cons, other]
            rfl
  rw [anchorOf, List.takeWhile_cons, stops]
  rfl

/-- **A path from the root through names that a directory can hold is read as it is spelled.** -/
theorem ofString_toString {names : List String} (proper : ∀ name ∈ names, IsName name) :
    ofString (toString ⟨.root, names⟩) = ⟨.root, names⟩ := by
  have kept : names.filter isKept = names :=
    List.filter_eq_self.2 fun name member => (proper name member).isKept
  have read : ((Text.split '/' (Text.joinWith '/' (names.map String.toList))).map
      String.ofList).filter isKept = names := by
    by_cases none_left : names = []
    · subst none_left
      rfl
    · have pieces : Text.split '/' (Text.joinWith '/' (names.map String.toList)) =
          names.map String.toList := by
        refine Text.split_joinWith (by simpa using none_left) fun piece member => ?_
        obtain ⟨name, among, rfl⟩ := List.mem_map.1 member
        exact (proper name among).unbroken
      rw [pieces, List.map_map]
      simpa [Function.comp_def] using kept
  simp only [ofString, toList_toString, anchorOf_root proper, Text.split_cons_separator,
    List.map_cons]
  rw [List.filter_cons_of_neg (by decide), read]

/-- The last name of a path from the root is read even when names before it are dropped. -/
theorem name_ofString_toString {front : List String} {last : String} (proper : IsName last) :
    (ofString (toString ⟨.root, front ++ [last]⟩)).name = last := by
  have spelled : ∃ before,
      (toString ⟨.root, front ++ [last]⟩).toList = before ++ '/' :: last.toList := by
    by_cases alone : front = []
    · refine ⟨[], ?_⟩
      rw [alone, toList_toString]
      rfl
    · refine ⟨'/' :: ("/".intercalate front).toList, ?_⟩
      rw [toList_toString, ← toList_intercalate,
        String.intercalate_append_of_ne_nil alone (by simp), String.intercalate_singleton,
        String.toList_append, String.toList_append]
      simp
  obtain ⟨before, spelled⟩ := spelled
  simp only [ofString, name, spelled, Text.split_append_cons,
    Text.split_of_not_mem proper.unbroken, List.map_append, List.map_cons, List.map_nil,
    List.filter_append, String.ofList_toList]
  rw [List.filter_cons_of_pos proper.isKept, List.filter_nil, List.getLast?_concat,
    Option.getD_some]

/-! ## Normal forms -/

theorem foldl_pushName_of_plain {absolute : Bool} {names : List String} (plain : ".." ∉ names)
    (before : List String) :
    names.foldl (pushName absolute) before = names.reverse ++ before := by
  induction names generalizing before with
  | nil => rfl
  | cons name rest ih =>
      simp only [List.mem_cons, not_or] at plain
      have pushed : pushName absolute before name = name :: before := if_neg (Ne.symm plain.1)
      rw [List.foldl_cons, pushed, ih plain.2, List.reverse_cons, List.append_assoc,
        List.singleton_append]

theorem normalize_of_plain {path : Path} (plain : ".." ∉ path.names) : path.normalize = path := by
  rw [normalize, foldl_pushName_of_plain plain, List.append_nil, List.reverse_reverse]

end Path

namespace Workspace

/-- A spelling from the root does not depend on the workspace. -/
theorem resolve_toString (workspace : Workspace) {place : List String}
    (proper : ∀ name ∈ place, Path.IsName name) :
    workspace.resolve (Path.toString ⟨.root, place⟩) = ⟨.root, place⟩ := by
  rw [resolve, Path.ofString_toString proper]
  rfl

theorem sameFile_iff (workspace : Workspace) (a b : String) :
    workspace.sameFile a b = true ↔
      (workspace.resolve a).normalize = (workspace.resolve b).normalize := by
  rw [sameFile, decide_eq_true_iff]

end Workspace

end Traceability
