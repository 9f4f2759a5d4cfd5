/-
# Traceability.Proofs.Patch.Diff -- anchored placement carries out a correct diff

`UnifiedDiff` says what it is for hunks to be a correct difference between two
lists of lines: each hunk names the lines it covers by number and by content,
and between the hunks the two lists agree.  Such hunks, placed on the old file,
give the new one; so they do on the old file with lines put in front of it, once
the first hunk is found that much further down.

The invariant of a run (`placeAll_diff`) ties the shift to the lines already
dealt with: the number of old lines before the next hunk plus the shift is the
number of lines they have become.

A file that holds a single line feed is read as a file without lines, although
as a file of one empty line it has a line to be kept or taken away.  It is the
only file on which a correct diff can go wrong (`applyAnchored_diff_iff`).
-/
import Traceability.Proofs.Patch.LineEnds
import Traceability.Proofs.Patch.Locate

namespace Traceability

set_option autoImplicit false

/-- A line as it stands in a file whose lines end in line feeds alone. -/
def Text.IsPlain (line : Text) : Prop := '\n' ∉ line ∧ '\r' ∉ line

instance (line : Text) : Decidable line.IsPlain := inferInstanceAs (Decidable (_ ∧ _))

/-- The text of a file with these lines; `final` says whether the last one has a line feed. -/
def fileText (final : Bool) (lines : List Text) : Text :=
  Text.unlines lines ++ if final then ['\n'] else []

/-- **A correct unified diff.**  The hunks turn the lines `old` into the lines `new`, where `before`
lines of the old file stand in front of `old`.  A hunk covers its old side, which starts after the
lines `kept`: its header gives the number of the first line it covers, or, when it covers none, the
number of lines in front of it. -/
inductive UnifiedDiff : (before : Nat) → (old new : List Text) → List Hunk → Prop where
  | same (before : Nat) (kept : List Text) : UnifiedDiff before kept kept []
  | hunk {before : Nat} {old new : List Text} {hunks : List Hunk} {hunk : Hunk} {range : HunkRange}
      (kept : List Text) (ranged : hunk.range = some range) (whole : hunk.surplus = [])
      (count : range.oldCount = hunk.oldSide.length)
      (start : range.oldStart = before + kept.length + if range.oldCount = 0 then 0 else 1)
      (rest : UnifiedDiff (before + kept.length + hunk.oldSide.length) old new hunks) :
      UnifiedDiff before (kept ++ hunk.oldSide ++ old) (kept ++ hunk.newSide ++ new) (hunk :: hunks)

/-- A hunk in front of a correct diff, on lists that are given whole. -/
theorem UnifiedDiff.cons {before : Nat} {whole changed : List Text} {hunks : List Hunk}
    {hunk : Hunk} {range : HunkRange} (kept old new : List Text)
    (covers : whole = kept ++ hunk.oldSide ++ old) (gives : changed = kept ++ hunk.newSide ++ new)
    (ranged : hunk.range = some range) (noSurplus : hunk.surplus = [])
    (count : range.oldCount = hunk.oldSide.length)
    (start : range.oldStart = before + kept.length + if range.oldCount = 0 then 0 else 1)
    (rest : UnifiedDiff (before + kept.length + hunk.oldSide.length) old new hunks) :
    UnifiedDiff before whole changed (hunk :: hunks) := by
  rw [covers, gives]
  exact .hunk kept ranged noSurplus count start rest

/-- With the lines `extra` in front of the old file, the first hunk is found that many lines below
the place its header gives. -/
def StartsShifted (extra old : List Text) (hunks : List Hunk) : Prop :=
  ∀ first ∈ hunks.head?, ∀ range ∈ first.range, ∃ place : Nat,
    locate (extra ++ old) first.oldSide (some range.base) = some place ∧
      (place : Int) = range.base + extra.length

/-! ## Files and their lines -/

theorem endsWith_fileText {final : Bool} {lines : List Text}
    (plain : ∀ line ∈ lines, line.IsPlain) (closed : final = false → lines.getLast? ≠ some []) :
    (fileText final lines).endsWith ['\n'] = final := by
  cases final with
  | true => exact Text.endsWith_append_singleton (Text.unlines lines) '\n'
  | false =>
      have text : fileText false lines = Text.unlines lines := by simp [fileText]
      rw [text, ← Bool.not_eq_true, Text.endsWith_singleton]
      intro last
      by_cases nonempty : lines = []
      · simp [nonempty, Text.unlines, Text.joinWith] at last
      · -- A final line feed would leave an empty last line.
        obtain ⟨front, ends⟩ := List.getLast?_eq_some_iff.1 last
        have cut : (Text.unlines lines).lines = Text.lines front ++ [[]] := by
          rw [ends]
          exact Text.lines_append_newline front []
        rw [Text.lines_unlines nonempty fun line member => (plain line member).1] at cut
        exact closed rfl (by rw [cut, List.getLast?_concat])

/-- The lines of a file are read back, except that a single empty line is taken for none. -/
theorem fileLines_fileText {final : Bool} {lines : List Text}
    (plain : ∀ line ∈ lines, line.IsPlain) (closed : final = false → lines.getLast? ≠ some []) :
    fileLines (fileText final lines) = if lines = [[]] then [] else lines := by
  have free : ∀ line ∈ lines, '\n' ∉ line := fun line member => (plain line member).1
  have pieces : (if (fileText final lines).endsWith ['\n'] then (fileText final lines).lines.dropLast
      else (fileText final lines).lines) = if lines = [] then [[]] else lines := by
    rw [endsWith_fileText plain closed]
    by_cases empty : lines = []
    · subst empty
      cases final <;> rfl
    · rw [if_neg empty]
      cases final with
      | true =>
          have cut := Text.lines_unlines_append empty free []
          rw [if_pos rfl, fileText, if_pos rfl, cut]
          exact List.dropLast_concat
      | false =>
          rw [if_neg Bool.false_ne_true, fileText, if_neg Bool.false_ne_true, List.append_nil]
          exact Text.lines_unlines empty free
  rw [fileLines, pieces]
  by_cases empty : lines = []
  · simp [empty]
  · simp [empty]

/-- On a file of plain lines, anchored placement is a run on its lines. -/
theorem applyAnchored_fileText {final : Bool} {lines : List Text} (path : String)
    (hunks : List Hunk) (plain : ∀ line ∈ lines, line.IsPlain)
    (closed : final = false → lines.getLast? ≠ some []) :
    applyAnchored path (fileText final lines) hunks =
      (Placement.placeAll false path 0 ⟨if lines = [[]] then [] else lines, 0⟩ hunks).map
        fun file => fileText final file.lines := by
  have returns : usesReturns (if lines = [[]] then [] else lines) = false := by
    split
    · rfl
    · exact usesReturns_of_not_mem fun line member => (plain line member).2
  simp only [applyAnchored, fileLines_fileText plain closed, returns,
    endsWith_fileText plain closed]
  cases Placement.placeAll false path 0 ⟨if lines = [[]] then [] else lines, 0⟩ hunks with
  | error conflict => rfl
  | ok file => cases final <;> simp [bind, Except.bind, Except.map, pure, Except.pure, fileText]

/-! ## One hunk, and a run -/

theorem Placement.place_of_locate {shift : Int} {before after : List Text} {hunk : Hunk}
    {range : HunkRange} (ranged : hunk.range = some range) (whole : hunk.surplus = [])
    (found : locate (before ++ hunk.oldSide ++ after) hunk.oldSide (some (range.base + shift)) =
      some before.length) :
    Placement.place false ⟨before ++ hunk.oldSide ++ after, shift⟩ hunk =
      .ok ⟨before ++ hunk.newSide ++ after,
        before.length - range.base + hunk.newSide.length - hunk.oldSide.length⟩ := by
  have fits : hunk.hasSurplusChanges = false := by simp [Hunk.hasSurplusChanges, whole]
  have front : (before ++ hunk.oldSide ++ after).take before.length = before := by
    rw [List.append_assoc, List.take_left]
  have back : (before ++ hunk.oldSide ++ after).drop (before.length + hunk.oldSide.length) =
      after := by
    rw [← List.length_append, List.drop_left]
  simp only [Placement.place, fits, ranged, Option.map_some, found, front, back,
    Bool.false_eq_true, if_false]

/-- The place that a header of a correct diff names. -/
theorem HunkRange.base_of_start {range : HunkRange} {place : Nat}
    (start : range.oldStart = place + if range.oldCount = 0 then 0 else 1) :
    range.base = place := by
  unfold HunkRange.base
  split
  · rename_i empty
    rw [start, if_pos empty, Nat.add_zero]
  · rename_i nonempty
    rw [start, if_neg nonempty]
    omega

/-- A run on a correct diff.  The lines `placed` have taken the place of the lines in front of
`old`, and the shift is the difference of their numbers. -/
theorem placeAll_diff {before : Nat} {old new : List Text} {hunks : List Hunk}
    (diff : UnifiedDiff before old new hunks) (path : String) (number : Nat) (placed : List Text)
    (shift : Int) (aligned : (before : Int) + shift = placed.length) :
    ∃ last, Placement.placeAll false path number ⟨placed ++ old, shift⟩ hunks =
      .ok ⟨placed ++ new, last⟩ := by
  induction diff generalizing number placed shift with
  | same before kept => exact ⟨shift, rfl⟩
  | @hunk before old new hunks hunk range kept ranged whole count start rest ih =>
      have base := HunkRange.base_of_start start
      -- By the alignment, the header and the shift lead to where the old side stands.
      have expected : range.base + shift = ((placed ++ kept).length : Nat) := by
        rw [base, List.length_append]
        omega
      have found := locate_eq_of_occursAt (occursAt_append (placed ++ kept) hunk.oldSide old)
      rw [← expected] at found
      have placedHere := Placement.place_of_locate ranged whole found
      obtain ⟨last, run⟩ := ih (number + 1) (placed ++ kept ++ hunk.newSide)
        ((placed ++ kept).length - range.base + hunk.newSide.length - hunk.oldSide.length)
        (by simp only [base, List.length_append]; omega)
      refine ⟨last, ?_⟩
      simp only [List.append_assoc] at placedHere run ⊢
      simp only [Placement.placeAll, placedHere, run]

/-- A run on a correct diff of a file with extra lines in front.  Only the first hunk has to be
searched for; after it the shift is known. -/
theorem placeAll_diff_shifted {old new extra : List Text} {hunks : List Hunk}
    (diff : UnifiedDiff 0 old new hunks) (path : String)
    (shifted : StartsShifted extra old hunks) :
    ∃ last, Placement.placeAll false path 0 ⟨extra ++ old, 0⟩ hunks =
      .ok ⟨extra ++ new, last⟩ := by
  cases diff with
  | same before kept => exact ⟨0, rfl⟩
  | @hunk before old new hunks hunk range kept ranged whole count start rest =>
      have base := HunkRange.base_of_start start
      obtain ⟨place, found, offset⟩ := shifted hunk rfl range ranged
      have here : place = (extra ++ kept).length := by
        rw [List.length_append]
        omega
      rw [here, ← Int.add_zero range.base] at found
      simp only [← List.append_assoc] at found
      have placedHere := Placement.place_of_locate ranged whole found
      obtain ⟨last, run⟩ := placeAll_diff rest path 1 (extra ++ kept ++ hunk.newSide)
        ((extra ++ kept).length - range.base + hunk.newSide.length - hunk.oldSide.length)
        (by simp only [base, List.length_append]; omega)
      refine ⟨last, ?_⟩
      simp only [List.append_assoc] at placedHere run ⊢
      simp only [Placement.placeAll, placedHere, run]

/-- A correct diff is found where its headers say in the very file it was made for. -/
theorem startsShifted_nil {old new : List Text} {hunks : List Hunk}
    (diff : UnifiedDiff 0 old new hunks) : StartsShifted [] old hunks := by
  intro first isFirst range ranged
  cases diff with
  | same before kept => cases isFirst
  | @hunk before old new hunks hunk range' kept ranged' whole count start rest =>
      cases isFirst
      cases ranged'.symm.trans ranged
      have base := HunkRange.base_of_start start
      rw [Nat.zero_add] at base
      refine ⟨kept.length, ?_, by simp [base]⟩
      rw [base, List.nil_append]
      exact locate_eq_of_occursAt (occursAt_append kept first.oldSide old)

/-! ## Whole files -/

theorem applyAnchored_diff_of_ne {final : Bool} {extra old new : List Text} {hunks : List Hunk}
    (diff : UnifiedDiff 0 old new hunks) (path : String)
    (plain : ∀ line ∈ extra ++ old, line.IsPlain)
    (closed : final = false → (extra ++ old).getLast? ≠ some [])
    (shifted : StartsShifted extra old hunks) (ne : extra ++ old ≠ [[]]) :
    applyAnchored path (fileText final (extra ++ old)) hunks =
      .ok (fileText final (extra ++ new)) := by
  obtain ⟨last, run⟩ := placeAll_diff_shifted diff path shifted
  rw [applyAnchored_fileText path hunks plain closed, if_neg ne, run]
  rfl

/-- An empty file with one empty line in front of it has no correct diff but the empty one: a hunk
without an old side goes to the place its header gives, not below it. -/
theorem eq_nil_of_startsShifted {old new : List Text} {hunks : List Hunk} (empty : old = [])
    (diff : UnifiedDiff 0 old new hunks) (shifted : StartsShifted [[]] old hunks) :
    hunks = [] ∧ new = [] := by
  cases diff with
  | same before kept => exact ⟨rfl, empty⟩
  | @hunk before old new hunks hunk range kept ranged whole count start rest =>
      simp only [List.append_eq_nil_iff] at empty
      obtain ⟨⟨noLines, noSide⟩, -⟩ := empty
      have base := HunkRange.base_of_start start
      obtain ⟨place, found, offset⟩ := shifted hunk rfl range ranged
      rw [base, noSide, noLines] at found
      rw [base, noLines] at offset
      simp [locate] at found offset
      omega

/-- The hunk that puts a letter in the place of an empty line at the top. -/
def fillFirstLine : Hunk := ⟨"@@ -1 +1 @@".toList, some ⟨1, 1, 1, 1⟩, [['-'], ['+', 'x']], []⟩

theorem fillFirstLine_diff : UnifiedDiff 0 [[]] [['x']] [fillFirstLine] :=
  .cons [] [] [] rfl rfl rfl rfl rfl rfl (.same 1 [])

theorem fillFirstLine_conflict (path : String) :
    applyAnchored path (fileText true [[]]) [fillFirstLine] = .error ⟨path, 0, .noMatch⟩ := rfl

/-- **Anchored placement gives the new file**, for every correct diff and also below any lines in
front of the file, exactly when the file is not a single line feed.  The lines in front matter only
in that the first hunk has to be found that much further down, as it always is when there are
none. -/
theorem applyAnchored_diff_iff (final : Bool) (extra old : List Text)
    (plain : ∀ line ∈ extra ++ old, line.IsPlain)
    (closed : final = false → (extra ++ old).getLast? ≠ some []) :
    (∀ (path : String) (new : List Text) (hunks : List Hunk), UnifiedDiff 0 old new hunks →
        (∀ line ∈ new, line.IsPlain) → (extra = [] ∨ StartsShifted extra old hunks) →
        applyAnchored path (fileText final (extra ++ old)) hunks =
          .ok (fileText final (extra ++ new))) ↔
      ¬(final = true ∧ extra = [] ∧ old = [[]]) := by
  constructor
  · rintro right ⟨rfl, rfl, rfl⟩
    have result := right "f" [['x']] [fillFirstLine] fillFirstLine_diff
      (by simp [Text.IsPlain]) (Or.inl rfl)
    rw [List.nil_append, fillFirstLine_conflict] at result
    cases result
  · intro notLone path new hunks diff _ start
    have shifted : StartsShifted extra old hunks := by
      rcases start with rfl | shifted
      · exact startsShifted_nil diff
      · exact shifted
    by_cases lone : extra ++ old = [[]]
    · -- One empty line in all: it is the line in front, and then there are no hunks.
      have ends : final = true := by
        cases final with
        | true => rfl
        | false => exact absurd (by rw [lone]; rfl) (closed rfl)
      rcases List.append_eq_singleton_iff.1 lone with ⟨noExtra, one⟩ | ⟨oneExtra, noLines⟩
      · exact absurd ⟨ends, noExtra, one⟩ notLone
      · subst oneExtra noLines ends
        obtain ⟨rfl, rfl⟩ := eq_nil_of_startsShifted rfl diff shifted
        rfl
    · exact applyAnchored_diff_of_ne diff path plain closed shifted lone

/-- Three hunks, one of them a pure insertion and one at the end of a file without a final line
feed, found below two lines that were put in front of the file. -/
theorem applyAnchored_diff_below_two_lines :
    applyAnchored "f" "p\nq\na\nb\nc\nd".toList
        [⟨[], some ⟨1, 1, 1, 1⟩, [['-', 'a'], ['+', 'A']], []⟩,
          ⟨[], some ⟨2, 0, 3, 1⟩, [['+', 'n']], []⟩,
          ⟨[], some ⟨4, 1, 5, 0⟩, [['-', 'd']], []⟩] =
      .ok "p\nq\nA\nb\nn\nc".toList := by
  have diff : UnifiedDiff 0 [['a'], ['b'], ['c'], ['d']] [['A'], ['b'], ['n'], ['c']]
      [⟨[], some ⟨1, 1, 1, 1⟩, [['-', 'a'], ['+', 'A']], []⟩,
        ⟨[], some ⟨2, 0, 3, 1⟩, [['+', 'n']], []⟩, ⟨[], some ⟨4, 1, 5, 0⟩, [['-', 'd']], []⟩] :=
    .cons [] [['b'], ['c'], ['d']] [['b'], ['n'], ['c']] rfl rfl rfl rfl rfl rfl
      (.cons [['b']] [['c'], ['d']] [['c']] rfl rfl rfl rfl rfl rfl
        (.cons [['c']] [] [] rfl rfl rfl rfl rfl rfl (.same 4 [])))
  have shifted : StartsShifted [['p'], ['q']] [['a'], ['b'], ['c'], ['d']]
      [⟨[], some ⟨1, 1, 1, 1⟩, [['-', 'a'], ['+', 'A']], []⟩,
        ⟨[], some ⟨2, 0, 3, 1⟩, [['+', 'n']], []⟩, ⟨[], some ⟨4, 1, 5, 0⟩, [['-', 'd']], []⟩] := by
    intro first isFirst range ranged
    cases isFirst
    cases ranged
    exact ⟨2, rfl, rfl⟩
  exact (applyAnchored_diff_iff false [['p'], ['q']] [['a'], ['b'], ['c'], ['d']] (by decide)
    (by decide)).2 (by decide) "f" _ _ diff (by decide) (Or.inr shifted)

/-- A file that is a single line feed breaks the rule: its one empty line is not seen, and the hunk
that fills it conflicts. -/
theorem not_forall_applyAnchored_diff :
    ¬∀ (path : String) (final : Bool) (extra old new : List Text) (hunks : List Hunk),
      UnifiedDiff 0 old new hunks → (∀ line ∈ extra ++ old ++ new, line.IsPlain) →
        StartsShifted extra old hunks → (final = false → (extra ++ old).getLast? ≠ some []) →
        applyAnchored path (fileText final (extra ++ old)) hunks =
          .ok (fileText final (extra ++ new)) := by
  intro right
  have result := right "f" true [] [[]] [['x']] [fillFirstLine] fillFirstLine_diff
    (by simp [Text.IsPlain]) (startsShifted_nil fillFirstLine_diff) (by decide)
  rw [List.nil_append, fillFirstLine_conflict] at result
  cases result

end Traceability
