/-
# Traceability.Proofs.Patch.Conflict -- no conflict on a file that matches

The lines of a text are the pieces between its line feeds, without the empty
piece behind a last line feed; the empty text has none (`contentLines`).  A hunk
whose old side is a block of these lines is placed, wherever its header points
and whether or not it has one.

A text that is a single line feed is the one exception: it has one line, which is
empty, but it is read as a file without lines (`fileLines_eq`), so the one block
that it holds is not found.  `applyAnchored_block_iff` says both.
-/
import Traceability.Proofs.Patch.Placement

namespace Traceability

set_option autoImplicit false

/-- The lines of a text, each ended by a line feed, the last one perhaps by the end of the text. -/
def contentLines (content : Text) : List Text :=
  if content = [] then []
  else if content.endsWith ['\n'] then content.lines.dropLast
  else content.lines

theorem lines_eq_singleton_nil_iff {text : Text} : text.lines = [[]] ↔ text = [] := by
  constructor
  · intro cut
    have joined := Text.joinWith_split '\n' text
    rw [← Text.lines, cut] at joined
    exact joined.symm
  · rintro rfl
    rfl

/-- A text has a single empty line only if it is a line feed. -/
theorem contentLines_eq_singleton_nil_iff {content : Text} :
    contentLines content = [[]] ↔ content = ['\n'] := by
  constructor
  · intro single
    unfold contentLines at single
    split at single
    · cases single
    · rename_i nonempty
      split at single
      · rename_i ended
        obtain ⟨front, rfl⟩ := List.isSuffixOf_iff_suffix.1 ended
        rw [Text.lines_append_newline front []] at single
        have front_lines : Text.lines front = [[]] := by
          simpa [Text.lines, Text.split] using single
        rw [lines_eq_singleton_nil_iff.1 front_lines]
        rfl
      · exact absurd (lines_eq_singleton_nil_iff.1 single) nonempty
  · rintro rfl
    rfl

/-- The lines that hunks are matched against are those of the text, except that a single line feed
is taken for an empty file. -/
theorem fileLines_eq (content : Text) :
    fileLines content = if content = ['\n'] then [] else contentLines content := by
  by_cases empty : content = []
  · rw [empty]
    rfl
  · have pieces : (if content.endsWith ['\n'] then content.lines.dropLast else content.lines) =
        contentLines content := by
      rw [contentLines, if_neg empty]
    rw [fileLines, pieces]
    simp only [contentLines_eq_singleton_nil_iff]

/-- What stands among the lines that hunks are matched against stands among those of the text. -/
theorem Occurs.of_fileLines {content : Text} {block : List Text}
    (occurs : Occurs (fileLines content) block) : Occurs (contentLines content) block := by
  rw [fileLines_eq] at occurs
  split at occurs
  · rw [Occurs, List.map_nil, List.infix_nil] at occurs
    rw [Occurs, occurs]
    exact List.nil_infix
  · exact occurs

/-- **A hunk whose old side is a block of the lines of a file is placed, unless the file is a single
line feed**: then it conflicts. -/
theorem applyAnchored_block_iff {path : String} {content : Text} {hunk : Hunk}
    (noSurplus : hunk.surplus = []) (nonempty : hunk.oldSide ≠ [])
    (block : hunk.oldSide <:+: contentLines content) :
    (∃ result, applyAnchored path content [hunk] = .ok result) ↔ content ≠ ['\n'] := by
  have settled : hunk.hasSurplusChanges = false := by rw [Hunk.hasSurplusChanges, noSurplus]; rfl
  rw [applyAnchored_singleton_succeeds_iff, fileLines_eq]
  constructor
  · rintro ⟨-, occurs⟩ lone
    rw [if_pos lone] at occurs
    exact not_occurs_nil nonempty occurs
  · intro notLone
    rw [if_neg notLone]
    exact ⟨settled, Occurs.of_block block⟩

/-- A hunk without line ranges that takes away one of two empty lines and adds a line. -/
def blankHunk : Hunk := ⟨"@@".toList, none, [['-'], [' '], ['+', 'x']], []⟩

/-- Two empty lines are found at the beginning of a file without a last line feed. -/
theorem applyAnchored_block_blank :
    blankHunk.oldSide ≠ [] ∧ blankHunk.oldSide <:+: contentLines "\n\n ".toList ∧
      ∃ result, applyAnchored "f" "\n\n ".toList [blankHunk] = .ok result := by
  have nonempty : blankHunk.oldSide ≠ [] := by decide
  have block : blankHunk.oldSide <:+: contentLines "\n\n ".toList := ⟨[], [[' ']], by decide⟩
  exact ⟨nonempty, block, (applyAnchored_block_iff rfl nonempty block).2 (by decide)⟩

/-- In a file that is a single line feed its one empty line is not found. -/
theorem not_forall_applyAnchored_block :
    ¬∀ (content : Text) (hunk : Hunk), hunk.surplus = [] → hunk.oldSide ≠ [] →
      hunk.oldSide <:+: contentLines content →
        ∃ result, applyAnchored "f" content [hunk] = .ok result := by
  intro placed
  have block : fillFirstLine.oldSide <:+: contentLines ['\n'] := ⟨[], [], rfl⟩
  obtain ⟨result, applied⟩ := placed ['\n'] fillFirstLine rfl (by decide) block
  have conflict : applyAnchored "f" ['\n'] [fillFirstLine] = .error ⟨"f", 0, .noMatch⟩ :=
    fillFirstLine_conflict "f"
  rw [conflict] at applied
  cases applied

end Traceability
