/-
# Traceability.Proofs.Patch.Placement -- what placing a hunk does

A hunk is placed when its surplus changes nothing and its old side is found in
the file (`Placement.place_eq_ok`); then the new side stands where the old
one stood.  A run places its hunks one after the other, so what is said of one
hunk can be said at each point of a run (`Placement.placeAll_append_eq_ok_iff`).
An old side is found exactly when it stands somewhere among the lines of the
file, whatever place the header names (`locate_ne_none_iff`).  So a run fails at
the first hunk that cannot be placed (`Placement.placeAll_eq_error_iff`), and a
patch with a single hunk fails only where its old side does not stand
(`applyAnchored_singleton_succeeds_iff`).
-/
import Traceability.Proofs.Fallible
import Traceability.Proofs.Patch.Diff

namespace Traceability

set_option autoImplicit false

/-! ## Blocks of lines -/

/-- The block stands somewhere among the lines, up to carriage returns at the ends of lines. -/
def Occurs (lines block : List Text) : Prop :=
  block.map Text.dropReturns <:+: lines.map Text.dropReturns

theorem occurs_iff_exists_place {lines block : List Text} :
    Occurs lines block ↔ ∃ place, OccursAt lines block place := by
  constructor
  · rintro ⟨before, after, cut⟩
    have count := congrArg List.length cut
    simp only [List.length_append, List.length_map] at count
    refine ⟨before.length, by omega, ?_⟩
    rw [List.map_drop, ← cut, List.append_assoc, List.drop_left]
    exact List.prefix_append _ _
  · rintro ⟨place, -, follows⟩
    rw [List.map_drop] at follows
    exact follows.isInfix.trans (List.drop_suffix place _).isInfix

theorem Occurs.of_block {lines block : List Text} (within : block <:+: lines) :
    Occurs lines block :=
  within.map Text.dropReturns

theorem not_occurs_nil {block : List Text} (nonempty : block ≠ []) : ¬Occurs [] block := by
  rw [Occurs, List.map_nil, List.infix_nil, List.map_eq_nil_iff]
  exact nonempty

/-- **A block is found exactly when it stands somewhere**, whatever place is expected. -/
theorem locate_ne_none_iff {lines block : List Text} {expected : Option Int} :
    locate lines block expected ≠ none ↔ Occurs lines block := by
  constructor
  · intro found
    obtain ⟨place, found⟩ := Option.ne_none_iff_exists'.1 found
    exact occurs_iff_exists_place.2 ⟨place, occursAt_of_locate found⟩
  · intro occurs
    obtain ⟨place, stands⟩ := occurs_iff_exists_place.1 occurs
    have candidates : occurrences lines block ≠ [] :=
      List.ne_nil_of_mem ((mem_occurrences lines block place).2 stands)
    unfold locate
    cases block.isEmpty <;> cases expected
    · simpa using candidates
    · exact nearest_ne_none _ candidates
    · simp
    · simp

namespace Placement

variable {returns : Bool} {path : String} {number : Nat} {file next last : Placement}
  {hunk : Hunk} {hunks : List Hunk}

/-! ## One hunk -/

/-- Where a hunk is found in a file. -/
def find (file : Placement) (hunk : Hunk) : Option Nat :=
  locate file.lines hunk.oldSide ((hunk.range.map HunkRange.base).map (· + file.shift))

/-- The lines that a hunk puts into a file. -/
def linesOf (returns : Bool) (hunk : Hunk) : List Text :=
  if returns then hunk.newSide.map withReturn else hunk.newSide

/-- The lines of a file after a hunk has been placed. -/
def splice (returns : Bool) (file : Placement) (hunk : Hunk) (place : Nat) : List Text :=
  file.lines.take place ++ linesOf returns hunk ++ file.lines.drop (place + hunk.oldSide.length)

theorem find_ne_none_iff : file.find hunk ≠ none ↔ Occurs file.lines hunk.oldSide :=
  locate_ne_none_iff

/-- A hunk that is placed changes nothing beyond its counts, and its new side takes the place of its
old side where that is found. -/
theorem place_eq_ok (placed : file.place returns hunk = .ok next) :
    hunk.hasSurplusChanges = false ∧ ∃ place, file.find hunk = some place ∧
      next.lines = splice returns file hunk place := by
  simp only [Placement.place] at placed
  split at placed
  · cases placed
  · rename_i settled
    rw [Bool.not_eq_true] at settled
    split at placed
    · cases placed
    · rename_i place found
      cases placed
      exact ⟨settled, place, found, rfl⟩

theorem place_eq_noMatch_iff :
    file.place returns hunk = .error .noMatch ↔
      hunk.hasSurplusChanges = false ∧ ¬Occurs file.lines hunk.oldSide := by
  rw [← find_ne_none_iff, Decidable.not_not, find, Placement.place]
  cases hunk.hasSurplusChanges with
  | true =>
      simp only [if_true, Except.error.injEq, reduceCtorEq, Bool.true_eq_false, false_and]
  | false =>
      simp only [Bool.false_eq_true, if_false, true_and]
      split
      · rename_i missing
        exact iff_of_true rfl missing
      · rename_i place found
        simp only [found, reduceCtorEq]

theorem exists_place_iff :
    (∃ next, file.place returns hunk = .ok next) ↔
      hunk.hasSurplusChanges = false ∧ Occurs file.lines hunk.oldSide := by
  constructor
  · rintro ⟨next, placed⟩
    obtain ⟨settled, place, found, -⟩ := place_eq_ok placed
    exact ⟨settled, find_ne_none_iff.1 (by rw [found]; exact Option.some_ne_none place)⟩
  · rintro ⟨settled, occurs⟩
    obtain ⟨place, found⟩ := Option.ne_none_iff_exists'.1 (find_ne_none_iff.2 occurs)
    rw [find] at found
    simp only [Placement.place, settled, Bool.false_eq_true, if_false, found]
    exact ⟨_, rfl⟩

/-! ## Runs -/

theorem placeAll_cons_eq_ok_iff :
    placeAll returns path number file (hunk :: hunks) = .ok last ↔
      ∃ next, file.place returns hunk = .ok next ∧
        placeAll returns path (number + 1) next hunks = .ok last := by
  rw [placeAll]
  cases file.place returns hunk with
  | error reason => simp only [reduceCtorEq, false_and, exists_false]
  | ok next =>
      refine ⟨fun placed => ⟨next, rfl, placed⟩, ?_⟩
      rintro ⟨other, same, placed⟩
      cases same
      exact placed

/-- A run over two lists of hunks is a run over the first and then one over the second. -/
theorem placeAll_append_eq_ok_iff {before after : List Hunk} :
    placeAll returns path number file (before ++ after) = .ok last ↔
      ∃ middle, placeAll returns path number file before = .ok middle ∧
        placeAll returns path (number + before.length) middle after = .ok last := by
  induction before generalizing number file with
  | nil =>
      simp only [List.nil_append, placeAll, Except.ok.injEq, exists_eq_left', List.length_nil,
        Nat.add_zero]
  | cons first before ih =>
      have count : number + (first :: before).length = number + 1 + before.length := by
        rw [List.length_cons]
        omega
      simp only [List.cons_append, placeAll_cons_eq_ok_iff, ih, count]
      constructor
      · rintro ⟨next, placed, middle, front, back⟩
        exact ⟨middle, ⟨next, placed, front⟩, back⟩
      · rintro ⟨middle, ⟨next, placed, front⟩, back⟩
        exact ⟨next, placed, middle, front, back⟩

/-- Every hunk of a run is placed in the file that the hunks before it have left. -/
theorem exists_step_of_placeAll {before after : List Hunk}
    (placed : placeAll returns path number file (before ++ hunk :: after) = .ok last) :
    ∃ middle next, placeAll returns path number file before = .ok middle ∧
      middle.place returns hunk = .ok next := by
  obtain ⟨middle, front, back⟩ := placeAll_append_eq_ok_iff.1 placed
  obtain ⟨next, step, -⟩ := placeAll_cons_eq_ok_iff.1 back
  exact ⟨middle, next, front, step⟩

theorem hasSurplusChanges_of_placeAll (placed : placeAll returns path number file hunks = .ok last)
    (member : hunk ∈ hunks) : hunk.hasSurplusChanges = false := by
  obtain ⟨before, after, rfl⟩ := List.append_of_mem member
  obtain ⟨middle, next, -, step⟩ := exists_step_of_placeAll placed
  exact (place_eq_ok step).1

/-- **A run ends in a conflict at the first hunk that cannot be placed** in the file that the hunks
before it have left. -/
theorem placeAll_eq_error_iff {conflict : PatchConflict} :
    placeAll returns path number file hunks = .error conflict ↔
      ∃ before hunk after middle reason, hunks = before ++ hunk :: after ∧
        placeAll returns path number file before = .ok middle ∧
        middle.place returns hunk = .error reason ∧
        conflict = ⟨path, number + before.length, reason⟩ := by
  constructor
  · intro failed
    induction hunks generalizing number file with
    | nil => cases failed
    | cons first rest ih =>
        rw [placeAll] at failed
        split at failed
        · rename_i reason refused
          cases failed
          exact ⟨[], first, rest, file, reason, rfl, rfl, refused, rfl⟩
        · rename_i next step
          obtain ⟨before, hunk, after, middle, reason, rfl, front, refused, rfl⟩ := ih failed
          refine ⟨first :: before, hunk, after, middle, reason, rfl, ?_, refused, ?_⟩
          · exact placeAll_cons_eq_ok_iff.2 ⟨next, step, front⟩
          · rw [List.length_cons, Nat.add_right_comm, Nat.add_assoc]
  · rintro ⟨before, hunk, after, middle, reason, rfl, front, refused, rfl⟩
    induction before generalizing number file with
    | nil =>
        cases front
        rw [List.nil_append, placeAll, refused]
        rfl
    | cons first before ih =>
        obtain ⟨next, step, front⟩ := placeAll_cons_eq_ok_iff.1 front
        rw [List.cons_append, placeAll, step]
        simp only [ih front, List.length_cons]
        rw [Nat.add_right_comm, Nat.add_assoc]

end Placement

/-! ## Whole files -/

/-- Anchored placement is a run on the lines of the file, which are joined at its end. -/
theorem applyAnchored_eq_map (path : String) (content : Text) (hunks : List Hunk) :
    applyAnchored path content hunks =
      (Placement.placeAll (usesReturns (fileLines content)) path 0 ⟨fileLines content, 0⟩
        hunks).map fun file => fileText (content.endsWith ['\n']) file.lines := by
  rw [applyAnchored]
  cases Placement.placeAll (usesReturns (fileLines content)) path 0 ⟨fileLines content, 0⟩ hunks with
  | error conflict => rfl
  | ok file =>
      cases content.endsWith ['\n'] <;>
        simp [bind, Except.bind, Except.map, pure, Except.pure, fileText]

theorem applyAnchored_eq_ok_iff {path : String} {content result : Text} {hunks : List Hunk} :
    applyAnchored path content hunks = .ok result ↔
      ∃ file, Placement.placeAll (usesReturns (fileLines content)) path 0 ⟨fileLines content, 0⟩
          hunks = .ok file ∧ result = fileText (content.endsWith ['\n']) file.lines := by
  rw [applyAnchored_eq_map]
  cases Placement.placeAll (usesReturns (fileLines content)) path 0 ⟨fileLines content, 0⟩ hunks with
  | error conflict => simp [Except.map]
  | ok file => simp [Except.map, eq_comm]

theorem applyAnchored_eq_error_iff {path : String} {content : Text} {hunks : List Hunk}
    {conflict : PatchConflict} :
    applyAnchored path content hunks = .error conflict ↔
      Placement.placeAll (usesReturns (fileLines content)) path 0 ⟨fileLines content, 0⟩ hunks =
        .error conflict := by
  rw [applyAnchored_eq_map]
  cases Placement.placeAll (usesReturns (fileLines content)) path 0 ⟨fileLines content, 0⟩ hunks with
  | error fault => simp [Except.map]
  | ok file => simp [Except.map]

/-- **A single hunk can be placed exactly when it changes nothing beyond its counts and its old side
stands somewhere among the lines of the file.** -/
theorem applyAnchored_singleton_succeeds_iff {path : String} {content : Text} {hunk : Hunk} :
    (∃ result, applyAnchored path content [hunk] = .ok result) ↔
      hunk.hasSurplusChanges = false ∧ Occurs (fileLines content) hunk.oldSide := by
  constructor
  · rintro ⟨result, applied⟩
    obtain ⟨file, placed, -⟩ := applyAnchored_eq_ok_iff.1 applied
    obtain ⟨next, step, -⟩ := Placement.placeAll_cons_eq_ok_iff.1 placed
    exact Placement.exists_place_iff.1 ⟨next, step⟩
  · intro fits
    have start : ∃ next, Placement.place (usesReturns (fileLines content)) ⟨fileLines content, 0⟩
        hunk = .ok next := Placement.exists_place_iff.2 fits
    obtain ⟨next, step⟩ := start
    exact ⟨_, applyAnchored_eq_ok_iff.2
      ⟨next, Placement.placeAll_cons_eq_ok_iff.2 ⟨next, step, rfl⟩, rfl⟩⟩

end Traceability
