/-
# Traceability.Proofs.Patch.Agreement -- where the two ways of placing a hunk agree

Substring placement looks for the removed lines as characters, joined by line
feeds; anchored placement looks for them as lines, together with the context.
For a hunk without context the two look for the same thing.  A block of lines
stands in the text behind the lines in front of it (`fileText_block`), so a
joined block that stands only once in the text stands only once among the lines
(`eq_length_of_occursAt`).  Then there is only one place for anchored placement to
find, whatever the header says, and the two results are the same
(`applyAnchored_eq_applySubstring`).
-/
import Mathlib.Data.List.Infix
import Traceability.Proofs.Patch.Conflict
import Traceability.Proofs.Patch.Conservation
import Traceability.Proofs.Text.Occurrence

namespace Traceability

set_option autoImplicit false

/-! ## Blocks of lines in a text -/

/-- The needle stands at exactly one place of the text; of places that overlap each one counts. -/
def Text.OccursOnce (needle text : Text) : Prop :=
  ∃! place, place ≤ text.length ∧ needle <+: text.drop place

/-- A text is made of its lines. -/
theorem fileText_contentLines (content : Text) :
    fileText (content.endsWith ['\n']) (contentLines content) = content := by
  by_cases empty : content = []
  · rw [empty]
    rfl
  · rw [contentLines, if_neg empty]
    by_cases ended : content.endsWith ['\n'] = true
    · obtain ⟨front, rfl⟩ := List.isSuffixOf_iff_suffix.1 ended
      rw [if_pos ended, ended, Text.lines_append_newline front [], fileText, if_pos rfl]
      have last : Text.lines [] = [[]] := rfl
      rw [last, List.dropLast_concat, Text.unlines, Text.lines, Text.joinWith_split]
    · rw [if_neg ended, fileText, if_neg ended, List.append_nil, Text.unlines, Text.lines,
        Text.joinWith_split]

/-- What follows a block of lines in a text whose lines behind the block are these. -/
def textBehind (final : Bool) (after : List Text) : Text :=
  if after = [] then fileText final [] else '\n' :: fileText final after

theorem fileText_block {final : Bool} {block : List Text} (before after : List Text)
    (nonempty : block ≠ []) :
    fileText final (before ++ block ++ after) =
      Text.endLines before ++ Text.unlines block ++ textBehind final after := by
  obtain ⟨first, others, rfl⟩ := List.exists_cons_of_ne_nil nonempty
  by_cases last : after = []
  · rw [last, List.append_nil, textBehind, if_pos rfl, fileText, fileText,
      Text.unlines_append_cons]
    rfl
  · obtain ⟨next, rest, rfl⟩ := List.exists_cons_of_ne_nil last
    have joined : Text.unlines (first :: others ++ next :: rest) =
        Text.unlines (first :: others) ++ '\n' :: Text.unlines (next :: rest) := by
      rw [Text.unlines_append_cons, Text.endLines_eq_unlines nonempty, List.append_assoc]
      rfl
    rw [List.append_assoc, textBehind, if_neg last, fileText, fileText, List.cons_append,
      Text.unlines_append_cons, ← List.cons_append, joined]
    simp only [List.append_assoc, List.cons_append]

/-! ## Lines without carriage returns -/

theorem Text.dropReturns_of_not_mem {line : Text} (free : '\r' ∉ line) :
    Text.dropReturns line = line := by
  have kept : line.reverse.dropWhile (· == '\r') = line.reverse := by
    cases backwards : line.reverse with
    | nil => rfl
    | cons c rest =>
        have member : c ∈ line := by
          rw [← List.mem_reverse, backwards]
          exact List.mem_cons_self
        have other : ¬(c == '\r') = true := by
          rw [beq_iff_eq]
          rintro rfl
          exact free member
        exact List.dropWhile_cons_of_neg other
  rw [Text.dropReturns, Text.dropEndWhile, kept, List.reverse_reverse]

theorem map_dropReturns_of_free {lines : List Text} (free : ∀ line ∈ lines, '\r' ∉ line) :
    lines.map Text.dropReturns = lines := by
  rw [List.map_congr_left fun line member => Text.dropReturns_of_not_mem (free line member)]
  exact List.map_id lines

/-- Where no line has a carriage return, a block stands where its very lines stand. -/
theorem OccursAt.eq_append {lines block : List Text} {place : Nat}
    (stands : OccursAt lines block place) (linesFree : ∀ line ∈ lines, '\r' ∉ line)
    (blockFree : ∀ line ∈ block, '\r' ∉ line) :
    ∃ after, lines = lines.take place ++ block ++ after ∧ (lines.take place).length = place := by
  obtain ⟨bound, after, follows⟩ := stands
  rw [map_dropReturns_of_free blockFree, List.map_drop, map_dropReturns_of_free linesFree]
    at follows
  refine ⟨after, ?_, List.length_take_of_le bound⟩
  rw [List.append_assoc, follows, List.take_append_drop]

/-! ## One place for a block -/

/-- Of beginnings of some lines, a longer one has a longer text. -/
theorem eq_of_prefix_of_length_endLines {front longer : List Text} (begins : front <+: longer)
    (same : (Text.endLines front).length = (Text.endLines longer).length) : front = longer := by
  obtain ⟨extra, rfl⟩ := begins
  cases extra with
  | nil => exact (List.append_nil front).symm
  | cons line rest =>
      rw [Text.endLines, Text.endLines, List.flatMap_append, List.length_append,
        ← Text.endLines, ← Text.endLines, Text.endLines_cons, List.length_append,
        List.length_cons] at same
      omega

/-- A joined block stands in the text behind the lines in front of it. -/
theorem prefix_drop_fileText (final : Bool) {block : List Text} (before after : List Text)
    (nonempty : block ≠ []) :
    (Text.endLines before).length ≤ (fileText final (before ++ block ++ after)).length ∧
      Text.unlines block <+:
        (fileText final (before ++ block ++ after)).drop (Text.endLines before).length := by
  rw [fileText_block before after nonempty, List.append_assoc, List.drop_left]
  refine ⟨?_, List.prefix_append _ _⟩
  rw [List.length_append]
  exact Nat.le_add_right _ _

/-- **A block whose join stands once in a text stands once among its lines.** -/
theorem eq_length_of_occursAt {final : Bool} {before block after : List Text} {place : Nat}
    (once : Text.OccursOnce (Text.unlines block) (fileText final (before ++ block ++ after)))
    (nonempty : block ≠ []) (free : ∀ line ∈ before ++ block ++ after, '\r' ∉ line)
    (stands : OccursAt (before ++ block ++ after) block place) : place = before.length := by
  have blockFree : ∀ line ∈ block, '\r' ∉ line := fun line member =>
    free line (List.mem_append_left _ (List.mem_append_right _ member))
  obtain ⟨rest, cut, count⟩ := stands.eq_append free blockFree
  generalize (before ++ block ++ after).take place = front at cut count
  have here := prefix_drop_fileText final before after nonempty
  have other := prefix_drop_fileText final front rest nonempty
  rw [← cut] at other
  have same : (Text.endLines front).length = (Text.endLines before).length :=
    once.unique other here
  -- Both are beginnings of the same lines, so one begins with the other.
  have front_prefix : front <+: before ++ block ++ after := by
    rw [cut, List.append_assoc]
    exact List.prefix_append _ _
  have before_prefix : before <+: before ++ block ++ after := by
    rw [List.append_assoc]
    exact List.prefix_append _ _
  rw [← count]
  rcases List.prefix_or_prefix_of_prefix front_prefix before_prefix with shorter | longer
  · rw [eq_of_prefix_of_length_endLines shorter same]
  · rw [eq_of_prefix_of_length_endLines longer same.symm]

/-- A block that stands at one place only is found there, whatever place is expected. -/
theorem locate_eq_of_unique {lines block : List Text} {place : Nat} (expected : Option Int)
    (stands : OccursAt lines block place)
    (only : ∀ other, OccursAt lines block other → other = place) :
    locate lines block expected = some place := by
  have found : locate lines block expected ≠ none :=
    locate_ne_none_iff.2 (occurs_iff_exists_place.2 ⟨place, stands⟩)
  obtain ⟨chosen, picked⟩ := Option.ne_none_iff_exists'.1 found
  rw [picked, only chosen (occursAt_of_locate picked)]

/-! ## Hunks without context -/

namespace Hunk

variable {hunk : Hunk} (noContext : hunk.contextLines = [])
include noContext

/-- Without context a line is removed if it is not added. -/
theorem hasMark_eq_of_noContext {line : Text} (member : line ∈ hunk.lines) :
    hasMark '-' line = !hasMark '+' line := by
  have marks := List.filter_eq_nil_iff.1 (List.map_eq_nil_iff.1 noContext) line member
  cases added : hasMark '+' line with
  | true => exact hasMark_unique '-' (by decide) added
  | false => simpa [added] using marks

/-- What a hunk without context must find is what it removes. -/
theorem oldSide_eq_removedLines (noSurplus : hunk.surplus = []) :
    hunk.oldSide = hunk.removedLines := by
  rw [oldSide, removedLines, body, noSurplus, List.append_nil]
  congr 1
  exact List.filter_congr fun line member => (hasMark_eq_of_noContext noContext member).symm

/-- What it puts in that place is what it adds. -/
theorem newSide_eq_addedLines (noSurplus : hunk.surplus = []) :
    hunk.newSide = hunk.addedLines := by
  rw [newSide, addedLines, body, noSurplus, List.append_nil]
  congr 1
  apply List.filter_congr
  intro line member
  rw [hasMark_eq_of_noContext noContext member, Bool.not_not]

end Hunk

/-! ## The two results -/

/-- The text after substring placement of a hunk whose removed lines stand once in it. -/
theorem applySubstring_block {final : Bool} {before after : List Text} {hunk : Hunk}
    (removes : hunk.removedLines ≠ []) (adds : hunk.addedLines ≠ [])
    (once : Text.OccursOnce (Text.unlines hunk.removedLines)
      (fileText final (before ++ hunk.removedLines ++ after))) :
    applySubstring (fileText final (before ++ hunk.removedLines ++ after)) [hunk] =
      fileText final (before ++ hunk.addedLines ++ after) := by
  have here := prefix_drop_fileText final before after removes
  have first : ∀ place < (Text.endLines before).length,
      ¬Text.unlines hunk.removedLines <+:
        (fileText final (before ++ hunk.removedLines ++ after)).drop place := by
    intro place above stands
    have bound : place ≤ (fileText final (before ++ hunk.removedLines ++ after)).length :=
      Nat.le_trans (Nat.le_of_lt above) here.1
    exact absurd (once.unique ⟨bound, stands⟩ here) (Nat.ne_of_lt above)
  rw [fileText_block before after removes] at first ⊢
  have replaced : Text.replaceFirst (Text.unlines hunk.removedLines) (Text.unlines hunk.addedLines)
      (Text.endLines before ++ Text.unlines hunk.removedLines ++ textBehind final after) =
        Text.endLines before ++ Text.unlines hunk.addedLines ++ textBehind final after :=
    Text.replaceFirst_append first
  rw [fileText_block before after adds, ← replaced]
  obtain ⟨line, rest, split⟩ := List.exists_cons_of_ne_nil removes
  simp only [applySubstring, List.foldl_cons, List.foldl_nil, substituteHunk, split]

/-- The text after anchored placement of such a hunk, which has no context. -/
theorem applyAnchored_block {path : String} {content : Text} {before after : List Text}
    {hunk : Hunk} (free : '\r' ∉ content) (noContext : hunk.contextLines = [])
    (noSurplus : hunk.surplus = []) (removes : hunk.removedLines ≠ [])
    (cut : fileLines content = before ++ hunk.removedLines ++ after)
    (once : Text.OccursOnce (Text.unlines hunk.removedLines)
      (fileText (content.endsWith ['\n']) (fileLines content))) :
    applyAnchored path content [hunk] =
      .ok (fileText (content.endsWith ['\n']) (before ++ hunk.addedLines ++ after)) := by
  have linesFree : ∀ line ∈ fileLines content, '\r' ∉ line :=
    fun line => not_mem_of_mem_fileLines free
  have settled : hunk.hasSurplusChanges = false := by
    rw [Hunk.hasSurplusChanges, noSurplus]
    rfl
  have old := Hunk.oldSide_eq_removedLines noContext noSurplus
  have new := Hunk.newSide_eq_addedLines noContext noSurplus
  have found : ∀ expected, locate (fileLines content) hunk.oldSide expected =
      some before.length := by
    intro expected
    rw [old, cut]
    refine locate_eq_of_unique expected (occursAt_append before hunk.removedLines after) ?_
    intro other stands
    rw [cut] at once linesFree
    exact eq_length_of_occursAt once removes linesFree stands
  have occurs : Occurs (fileLines content) hunk.oldSide := by
    rw [old, cut]
    exact Occurs.of_block ⟨before, after, rfl⟩
  have succeeds : ∃ result, applyAnchored path content [hunk] = .ok result :=
    applyAnchored_singleton_succeeds_iff.2 ⟨settled, occurs⟩
  obtain ⟨result, applied⟩ := succeeds
  obtain ⟨file, placed, joined⟩ := applyAnchored_eq_ok_iff.1 applied
  obtain ⟨next, step, last⟩ := Placement.placeAll_cons_eq_ok_iff.1 placed
  cases last
  rw [usesReturns_fileLines free] at step
  obtain ⟨-, place, here, spliced⟩ := Placement.place_eq_ok step
  have there : place = before.length := Option.some.inj (here.symm.trans (found _))
  have lines : file.lines = before ++ hunk.addedLines ++ after := by
    rw [spliced, there, Placement.splice, Placement.linesOf, old, new, cut,
      ← List.length_append, List.drop_left, List.append_assoc before hunk.removedLines,
      List.take_left]
    rfl
  rw [applied, joined, lines]

/-- **The two ways of placing a hunk agree where only one place is possible.**  In a text without
carriage returns, take a hunk that keeps no lines, has no surplus, adds some line and removes lines
whose join is not empty; it may have line ranges, right or wrong, or none.  If that join stands at
exactly one place of the text, and the removed lines are a block of its lines, then both ways of
placing the hunk give the same text. -/
theorem applyAnchored_eq_applySubstring {path : String} {content : Text} {hunk : Hunk}
    (free : '\r' ∉ content) (noContext : hunk.contextLines = []) (noSurplus : hunk.surplus = [])
    (adds : hunk.addedLines ≠ []) (removes : Text.unlines hunk.removedLines ≠ [])
    (once : Text.OccursOnce (Text.unlines hunk.removedLines) content)
    (block : hunk.removedLines <:+: contentLines content) :
    applyAnchored path content [hunk] = .ok (applySubstring content [hunk]) := by
  have nonempty : hunk.removedLines ≠ [] := by
    intro nothing
    rw [nothing] at removes
    exact removes rfl
  obtain ⟨before, after, cut⟩ := block
  have notLone : content ≠ ['\n'] := by
    rintro rfl
    -- The only line is empty, and so would be the join of the lines removed.
    have single : hunk.removedLines <:+: [[]] := ⟨before, after, cut⟩
    have all : hunk.removedLines = [[]] :=
      ((List.infix_singleton_iff _ _).1 single).resolve_left nonempty
    rw [all] at removes
    exact removes rfl
  have lines : fileLines content = before ++ hunk.removedLines ++ after := by
    rw [fileLines_eq, if_neg notLone, cut]
  have whole : fileText (content.endsWith ['\n']) (before ++ hunk.removedLines ++ after) =
      content := by
    rw [cut, fileText_contentLines]
  have onceInLines : Text.OccursOnce (Text.unlines hunk.removedLines)
      (fileText (content.endsWith ['\n']) (before ++ hunk.removedLines ++ after)) := by
    rw [whole]
    exact once
  have substituted := applySubstring_block nonempty adds onceInLines
  rw [whole] at substituted
  rw [substituted]
  rw [← lines] at onceInLines
  exact applyAnchored_block free noContext noSurplus nonempty lines onceInLines

/-- A hunk that changes the last two lines of a file and names a place behind its end. -/
def lastLinesHunk : Hunk :=
  ⟨"@@ -9,2 +9 @@".toList, some ⟨9, 2, 9, 1⟩, ["-b".toList, "+z".toList, "-c".toList], []⟩

/-- The two lines at the end of a file without a last line feed; the end of another line looks like
the first of them. -/
theorem applyAnchored_eq_applySubstring_last_lines :
    Text.OccursOnce "b\nc".toList "ab\nb\nc".toList ∧
      lastLinesHunk.removedLines <:+: contentLines "ab\nb\nc".toList ∧
      applyAnchored "f" "ab\nb\nc".toList [lastLinesHunk] =
        .ok (applySubstring "ab\nb\nc".toList [lastLinesHunk]) ∧
      applySubstring "ab\nb\nc".toList [lastLinesHunk] = "ab\nz".toList := by
  have once : Text.OccursOnce "b\nc".toList "ab\nb\nc".toList := by
    refine ⟨3, by decide, ?_⟩
    rintro place ⟨bound, stands⟩
    have only : ∀ place ≤ 6, "b\nc".toList <+: "ab\nb\nc".toList.drop place → place = 3 := by decide
    exact only place bound stands
  have block : lastLinesHunk.removedLines <:+: contentLines "ab\nb\nc".toList :=
    ⟨["ab".toList], [], by decide⟩
  refine ⟨once, block, ?_, by decide⟩
  exact applyAnchored_eq_applySubstring (by decide) rfl rfl (by decide) (by decide) once block

end Traceability
