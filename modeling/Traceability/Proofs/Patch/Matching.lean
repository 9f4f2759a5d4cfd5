/-
# Traceability.Proofs.Patch.Matching -- what a hunk is matched against

A hunk is matched against the file as the hunks before it have left it.  It
conflicts exactly when its old side stands nowhere in that file.

`Worked` is the part of a file on which hunks have worked; above and below it the
lines are those of the original file, in their order and without gaps
(`Worked.Frames`).  Each hunk keeps this (`Placement.frames_splice`), and so does
a run (`Placement.exists_track_of_placeAll`).  So a hunk that is found outside of that part stands in the original file,
as every hunk does that comes at its place in the order of the lines.  A hunk
that is found inside it may be matched against what another hunk has put there
(`chained_not_in_file`).
-/
import Traceability.Proofs.Patch.Conflict

namespace Traceability

set_option autoImplicit false

/-- The part of a file on which hunks have worked: its lines from number `top` up to `bottom`. -/
structure Worked where
  top : Nat
  bottom : Nat

namespace Worked

/-- None of the lines has been worked on. -/
def nowhere (lines : List Text) : Worked := ⟨lines.length, 0⟩

/-- The part on which a hunk too has worked that was found at a place. -/
def extend (worked : Worked) (hunk : Hunk) (place : Nat) : Worked :=
  ⟨min worked.top place,
    max worked.bottom (place + hunk.oldSide.length) - hunk.oldSide.length + hunk.newSide.length⟩

@[simp] theorem top_extend (worked : Worked) (hunk : Hunk) (place : Nat) :
    (worked.extend hunk place).top = min worked.top place := rfl

@[simp] theorem bottom_extend (worked : Worked) (hunk : Hunk) (place : Nat) :
    (worked.extend hunk place).bottom =
      max worked.bottom (place + hunk.oldSide.length) - hunk.oldSide.length +
        hunk.newSide.length := rfl

/-- Does the block at a place lie wholly above or below that part? -/
def Misses (worked : Worked) (block : List Text) (place : Nat) : Prop :=
  place + block.length ≤ worked.top ∨ worked.bottom ≤ place

instance (worked : Worked) (block : List Text) (place : Nat) :
    Decidable (worked.Misses block place) :=
  inferInstanceAs (Decidable (_ ∨ _))

/-- Above and below that part, the lines are those of the original file. -/
structure Frames (worked : Worked) (original lines : List Text) : Prop where
  above : lines.take worked.top <+: original
  below : lines.drop worked.bottom <:+ original

theorem frames_nowhere (lines : List Text) : (nowhere lines).Frames lines lines := by
  constructor
  · exact List.take_prefix lines.length lines
  · exact List.drop_suffix 0 lines

end Worked

/-! ## Blocks above and below -/

theorem OccursAt.end_le {lines block : List Text} {place : Nat}
    (stands : OccursAt lines block place) : place + block.length ≤ lines.length := by
  have count := stands.2.length_le
  have bound := stands.1
  simp only [List.length_map, List.length_drop] at count
  omega

/-- A block that stands among the first lines stands in every file that begins with them. -/
theorem OccursAt.occurs_of_above {original lines block : List Text} {top place : Nat}
    (stands : OccursAt lines block place) (fits : place + block.length ≤ top)
    (above : lines.take top <+: original) : Occurs original block := by
  have bound := stands.end_le
  have within : block.map Text.dropReturns <+:
      ((lines.drop place).take (top - place)).map Text.dropReturns := by
    refine List.prefix_of_prefix_length_le stands.2 ((List.take_prefix _ _).map _) ?_
    simp only [List.length_map, List.length_take, List.length_drop]
    omega
  rw [← List.drop_take] at within
  have inFirst := within.isInfix.trans ((List.drop_suffix place _).isInfix.map Text.dropReturns)
  exact inFirst.trans (above.isInfix.map Text.dropReturns)

/-- A block that stands among the last lines stands in every file that ends with them. -/
theorem OccursAt.occurs_of_below {original lines block : List Text} {bottom place : Nat}
    (stands : OccursAt lines block place) (fits : bottom ≤ place)
    (below : lines.drop bottom <:+ original) : Occurs original block := by
  have last : lines.drop place <:+ original :=
    (List.drop_suffix_drop_left lines fits).trans below
  exact stands.2.isInfix.trans (last.isInfix.map Text.dropReturns)

/-- **A block outside of the part worked on stands in the original file.** -/
theorem Worked.Frames.occurs {worked : Worked} {original lines block : List Text} {place : Nat}
    (frames : worked.Frames original lines) (stands : OccursAt lines block place)
    (misses : worked.Misses block place) : Occurs original block := by
  rcases misses with above | below
  · exact stands.occurs_of_above above frames.above
  · exact stands.occurs_of_below below frames.below

/-! ## One hunk, and a run -/

namespace Placement

variable {returns : Bool} {path : String} {number : Nat} {file next last : Placement}
  {hunk : Hunk} {hunks : List Hunk}

theorem length_linesOf (returns : Bool) (hunk : Hunk) :
    (linesOf returns hunk).length = hunk.newSide.length := by
  cases returns
  · rfl
  · exact List.length_map withReturn

theorem occursAt_of_find {place : Nat} (found : file.find hunk = some place) :
    OccursAt file.lines hunk.oldSide place :=
  occursAt_of_locate found

/-- What a hunk leaves of a file, above and below the part worked on. -/
theorem frames_splice {worked : Worked} {original : List Text} {place : Nat}
    (frames : worked.Frames original file.lines) (stands : OccursAt file.lines hunk.oldSide place) :
    (worked.extend hunk place).Frames original (splice returns file hunk place) := by
  have bound := stands.end_le
  have front : (file.lines.take place).length = place := by
    rw [List.length_take]
    omega
  constructor
  · -- Above, nothing but lines that stood above the hunk.
    have above : (splice returns file hunk place).take (min worked.top place) =
        file.lines.take (min worked.top place) := by
      rw [splice, List.append_assoc, List.take_append_of_le_length (by omega), List.take_take]
      congr 1
      omega
    rw [Worked.top_extend, above]
    exact (List.take_prefix_take_left (Nat.min_le_left _ _)).trans frames.above
  · -- Below, nothing but lines that stood below it.
    have past : (worked.extend hunk place).bottom =
        (file.lines.take place ++ linesOf returns hunk).length +
          (max worked.bottom (place + hunk.oldSide.length) - (place + hunk.oldSide.length)) := by
      rw [List.length_append, front, length_linesOf, Worked.bottom_extend]
      omega
    have below : (splice returns file hunk place).drop (worked.extend hunk place).bottom =
        file.lines.drop (max worked.bottom (place + hunk.oldSide.length)) := by
      rw [past, splice, List.drop_length_add_append, List.drop_drop]
      congr 1
      omega
    rw [below]
    exact (List.drop_suffix_drop_left file.lines (Nat.le_max_left _ _)).trans frames.below

/-- A run, together with the part of the file on which its hunks have worked. -/
def track (returns : Bool) : Placement → Worked → List Hunk → Option (Placement × Worked)
  | file, worked, [] => some (file, worked)
  | file, worked, hunk :: rest => do
      let place ← file.find hunk
      let next ← (file.place returns hunk).toOption
      next.track returns (worked.extend hunk place) rest

/-- **A run leaves the lines alone that stand above and below the part on which it works.** -/
theorem exists_track_of_placeAll {worked : Worked} {original : List Text}
    (placed : placeAll returns path number file hunks = .ok last)
    (frames : worked.Frames original file.lines) :
    ∃ reached, file.track returns worked hunks = some (last, reached) ∧
      reached.Frames original last.lines := by
  induction hunks generalizing number file worked with
  | nil =>
      cases placed
      exact ⟨worked, rfl, frames⟩
  | cons hunk rest ih =>
      obtain ⟨next, step, later⟩ := placeAll_cons_eq_ok_iff.1 placed
      obtain ⟨-, place, found, spliced⟩ := place_eq_ok step
      have kept : (worked.extend hunk place).Frames original next.lines := by
        rw [spliced]
        exact frames_splice frames (occursAt_of_find found)
      obtain ⟨reached, tracked, framed⟩ := ih later kept
      refine ⟨reached, ?_, framed⟩
      rw [track, found, step]
      exact tracked

end Placement

/-! ## Whole files -/

/-- The file that the hunks leave of a content. -/
def LeftBy (path : String) (content : Text) (hunks : List Hunk) (file : Placement) : Prop :=
  Placement.placeAll (usesReturns (fileLines content)) path 0 ⟨fileLines content, 0⟩ hunks =
    .ok file

/-- After the hunks `before`, which have worked on the part `worked`, the hunk is found at a place. -/
def FoundAt (content : Text) (before : List Hunk) (hunk : Hunk) (worked : Worked) (place : Nat) :
    Prop :=
  ∃ file, Placement.track (usesReturns (fileLines content)) ⟨fileLines content, 0⟩
      (.nowhere (fileLines content)) before = some (file, worked) ∧
    file.find hunk = some place

/-- **Hunks are matched against the file that the hunks before them have left.**  A hunk conflicts
there exactly when its old side stands nowhere in that file.  When all hunks are placed, each of them
stands in the original file too, unless it is found on lines on which hunks before it have worked. -/
theorem applyAnchored_matches (path : String) (content : Text) (hunks : List Hunk) :
    (∀ number, applyAnchored path content hunks = .error ⟨path, number, .noMatch⟩ ↔
      ∃ before hunk after file, hunks = before ++ hunk :: after ∧ before.length = number ∧
        LeftBy path content before file ∧ hunk.hasSurplusChanges = false ∧
        ¬Occurs file.lines hunk.oldSide) ∧
    ∀ result, applyAnchored path content hunks = .ok result →
      ∀ before hunk after, hunks = before ++ hunk :: after →
        ∃ worked place, FoundAt content before hunk worked place ∧
          (worked.Misses hunk.oldSide place → Occurs (contentLines content) hunk.oldSide) := by
  constructor
  · intro number
    rw [applyAnchored_eq_error_iff, Placement.placeAll_eq_error_iff]
    constructor
    · rintro ⟨before, hunk, after, file, reason, split_, left, refused, same⟩
      cases same
      obtain ⟨settled, missing⟩ := Placement.place_eq_noMatch_iff.1 refused
      exact ⟨before, hunk, after, file, split_, (Nat.zero_add _).symm, left, settled, missing⟩
    · rintro ⟨before, hunk, after, file, split_, rfl, left, settled, missing⟩
      refine ⟨before, hunk, after, file, .noMatch, split_, left, ?_, by rw [Nat.zero_add]⟩
      exact Placement.place_eq_noMatch_iff.2 ⟨settled, missing⟩
  · rintro result applied before hunk after rfl
    obtain ⟨last, placed, -⟩ := applyAnchored_eq_ok_iff.1 applied
    obtain ⟨file, next, left, step⟩ := Placement.exists_step_of_placeAll placed
    obtain ⟨-, place, found, -⟩ := Placement.place_eq_ok step
    obtain ⟨worked, tracked, frames⟩ :=
      Placement.exists_track_of_placeAll left (Worked.frames_nowhere (fileLines content))
    refine ⟨worked, place, ⟨file, tracked, found⟩, fun misses => ?_⟩
    exact (frames.occurs (Placement.occursAt_of_find found) misses).of_fileLines

/-- A line is put in. -/
def insertedAbove : Hunk := ⟨"@@ -1,0 +2 @@".toList, some ⟨1, 0, 2, 1⟩, ["+x".toList], []⟩

/-- Further down, a line is taken away. -/
def removedBelow : Hunk := ⟨"@@ -3 +3,0 @@".toList, some ⟨3, 1, 3, 0⟩, ["-c".toList], []⟩

/-- Of two hunks in the order of the lines, the second is found below the work of the first. -/
theorem applyAnchored_matches_in_order :
    applyAnchored "f" "a\nb\nc\n".toList [insertedAbove, removedBelow] = .ok "a\nx\nb\n".toList ∧
      ∃ worked place, FoundAt "a\nb\nc\n".toList [insertedAbove] removedBelow worked place ∧
        worked.Misses removedBelow.oldSide place ∧
        Occurs (contentLines "a\nb\nc\n".toList) removedBelow.oldSide := by
  have applied : applyAnchored "f" "a\nb\nc\n".toList [insertedAbove, removedBelow] =
      .ok "a\nx\nb\n".toList := rfl
  obtain ⟨worked, place, found, outside⟩ :=
    (applyAnchored_matches "f" "a\nb\nc\n".toList [insertedAbove, removedBelow]).2 _ applied
      [insertedAbove] removedBelow [] rfl
  have misses : worked.Misses removedBelow.oldSide place := by
    obtain ⟨file, tracked, here⟩ := found
    cases tracked
    cases here
    decide
  exact ⟨applied, worked, place, found, misses, outside misses⟩

/-- A line is put in the place of another. -/
def firstChange : Hunk := ⟨"@@ -1 +1 @@".toList, some ⟨1, 1, 1, 1⟩, ["-a".toList, "+x".toList], []⟩

/-- The line that `firstChange` puts in gives way to a third one. -/
def secondChange : Hunk := ⟨"@@ -1 +1 @@".toList, some ⟨1, 1, 1, 1⟩, ["-x".toList, "+y".toList], []⟩

/-- A hunk is matched against the output of another: its old side stands nowhere in the file, and yet
there is no conflict. -/
theorem chained_not_in_file :
    ¬∀ (path : String) (content result : Text) (hunks : List Hunk),
      applyAnchored path content hunks = .ok result →
        ∀ hunk ∈ hunks, hunk.oldSide ≠ [] → Occurs (contentLines content) hunk.oldSide := by
  intro matched
  have applied : applyAnchored "f" "a\n".toList [firstChange, secondChange] =
      .ok "y\n".toList := rfl
  obtain ⟨before, after, cut⟩ := matched _ _ _ _ applied secondChange (by simp) (by decide)
  have lines : (contentLines "a\n".toList).map Text.dropReturns = [['a']] := by decide
  have side : secondChange.oldSide.map Text.dropReturns = [['x']] := by decide
  rw [lines, side] at cut
  have member : ['x'] ∈ [['a']] := by
    rw [← cut]
    simp
  exact absurd member (by decide)

end Traceability
