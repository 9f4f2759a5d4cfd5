/-
# Traceability.Proofs.Patch.Deletion -- a deleted file behind a patch

The section of a patch that deletes a file gives `/dev/null` for the new name, so
no line of it opens a section.  Behind another patch, its lines fall to the last
section of that patch: what it announces goes to the surplus of the last hunk,
and its hunks become hunks of that section (`readPatch_append_deletion`).  The
paths, the sections before the last and the lines of every hunk stay what they
are.

Lines behind the end of a mail are not read up to the next hunk, so there an
announcement leaves no trace.  The patch in front is read as if it stood alone
exactly when a mail ends it, or its last section has no hunk, and the deletion
has no hunks.
-/
import Traceability.Proofs.Patch.Concatenation

namespace Traceability

set_option autoImplicit false

/-! ## Deletions as they are written -/

/-- A hunk that does nothing but remove lines, as it is written.  The rows are the lines that it
removes, with remarks anywhere among them. -/
structure RemovalSource where
  header : Text
  range : HunkRange
  rows : List Text
  ranged : HunkRange.ofHeader? header = some range
  header_free : '\n' ∉ header
  rows_free : ∀ row ∈ rows, '\n' ∉ row
  removes : ∀ row ∈ bodyOf rows, Hunk.hasMark '-' row = true
  old_count : range.oldCount = (bodyOf rows).length
  new_count : range.newCount = 0

namespace RemovalSource

/-- The hunk that is written. -/
def hunk (source : RemovalSource) : Hunk :=
  ⟨source.header, some source.range, bodyOf source.rows, []⟩

def lines (source : RemovalSource) : List Text := source.header :: source.rows

end RemovalSource

/-- The section of a patch that deletes a file, as it is written: the lines that announce it, the
name of the file, and its hunks. -/
structure DeletionSource where
  metadata : List Text
  oldName : Text
  hunks : List RemovalSource
  announced : ∀ line ∈ metadata, line.startsWithAny announcements = true
  metadata_free : ∀ line ∈ metadata, '\n' ∉ line
  oldName_free : '\n' ∉ oldName

namespace DeletionSource

/-- The lines with the old and the new name. -/
def notice (source : DeletionSource) : List Text :=
  ["--- ".toList ++ source.oldName, "+++ /dev/null".toList]

def lines (source : DeletionSource) : List Text :=
  source.metadata ++ source.notice ++ source.hunks.flatMap RemovalSource.lines

/-- The text of the section, every line ended by a line feed. -/
def text (source : DeletionSource) : Text := Text.endLines source.lines

end DeletionSource

/-! ## How a patch ends, and what becomes of it -/

/-- If the section has a hunk, its last one has line ranges whose counts are used up. -/
def SectionUsedUp (body : List Text) : Prop :=
  ∀ part ∈ (cutAt (·.startsWith hunkMark) body).2.getLast?,
    ∃ range ∈ HunkRange.ofHeader? part.1, range.UsedUp part.2

instance (body : List Text) : Decidable (SectionUsedUp body) :=
  inferInstanceAs (Decidable
    (∀ part ∈ (cutAt (·.startsWith hunkMark) body).2.getLast?,
      ∃ range ∈ HunkRange.ofHeader? part.1, range.UsedUp part.2))

/-- No hunk of the section takes up the lines that follow: it has none, or a mail ends beyond the
counts of its last one. -/
def SectionClosed (body : List Text) : Prop :=
  ∀ part ∈ (cutAt (·.startsWith hunkMark) body).2.getLast?,
    ∀ range ∈ HunkRange.ofHeader? part.1, MailEnds range.oldCount range.newCount part.2

instance (body : List Text) : Decidable (SectionClosed body) :=
  inferInstanceAs (Decidable
    (∀ part ∈ (cutAt (·.startsWith hunkMark) body).2.getLast?,
      ∀ range ∈ HunkRange.ofHeader? part.1, MailEnds range.oldCount range.newCount part.2))

/-- There is a section, and the counts of the last hunk of the last one are used up. -/
def EndsUsedUp (lines : List Text) : Prop :=
  ∃ part ∈ (cutAt (·.startsWith fileMark) lines).2.getLast?, SectionUsedUp part.2

instance (lines : List Text) : Decidable (EndsUsedUp lines) :=
  inferInstanceAs (Decidable
    (∃ part ∈ (cutAt (·.startsWith fileMark) lines).2.getLast?, SectionUsedUp part.2))

/-- No hunk of the last section takes up the lines that follow. -/
def EndsClosed (lines : List Text) : Prop :=
  ∀ part ∈ (cutAt (·.startsWith fileMark) lines).2.getLast?, SectionClosed part.2

instance (lines : List Text) : Decidable (EndsClosed lines) :=
  inferInstanceAs (Decidable
    (∀ part ∈ (cutAt (·.startsWith fileMark) lines).2.getLast?, SectionClosed part.2))

theorem SectionUsedUp.settled {body : List Text} (usedUp : SectionUsedUp body) :
    SectionSettled body := by
  intro part member range ranged
  obtain ⟨itsRange, itsRanged, used⟩ := usedUp part member
  rwa [Option.mem_unique ranged itsRanged]

/-- The hunks have become others in that some lines went to the surplus of the last one. -/
def SurplusGrows (lines : List Text) (before after : List Hunk) : Prop :=
  ∃ front last blanks, before = front ++ [last] ∧ (∀ line ∈ blanks, line = []) ∧
    after = front ++ [{ last with surplus := last.surplus ++ blanks ++ lines }]

theorem SurplusGrows.ne {lines : List Text} {before after : List Hunk}
    (grows : SurplusGrows lines before after) (nonempty : lines ≠ []) : after ≠ before := by
  obtain ⟨front, last, blanks, rfl, -, rfl⟩ := grows
  intro same
  have surplus : last.surplus ++ blanks ++ lines = last.surplus :=
    congrArg Hunk.surplus (List.cons.inj (List.append_cancel_left same)).1
  rw [List.append_assoc, List.append_right_eq_self, List.append_eq_nil_iff] at surplus
  exact nonempty surplus.2

theorem SurplusGrows.length_eq {lines : List Text} {before after : List Hunk}
    (grows : SurplusGrows lines before after) : after.length = before.length := by
  obtain ⟨front, last, blanks, rfl, -, rfl⟩ := grows
  rw [List.length_append, List.length_append]
  rfl

/-- Hunks that stay or grow, with more hunks behind them, are what they were exactly when they stay
and there are no more. -/
theorem grown_append_eq_iff {closed : Prop} {lines : List Text} (nonempty : lines ≠ [])
    {before after more : List Hunk} (stays : closed → after = before)
    (grows : ¬closed → SurplusGrows lines before after) :
    after ++ more = before ↔ closed ∧ more = [] := by
  by_cases isClosed : closed
  · rw [stays isClosed, List.append_right_eq_self, and_iff_right isClosed]
  · refine iff_of_false (fun same => ?_) fun nothing => isClosed nothing.1
    have grown := grows isClosed
    have length := congrArg List.length same
    rw [List.length_append, grown.length_eq, Nat.add_eq_left] at length
    rw [List.length_eq_zero_iff.1 length, List.append_nil] at same
    exact grown.ne nonempty same

/-! ## Lines of a deletion -/

theorem startsWith_hunkMark_of_ofHeader? {header : Text} {range : HunkRange}
    (ranged : HunkRange.ofHeader? header = some range) : header.startsWith hunkMark = true := by
  obtain ⟨rest, skipped, -⟩ := Option.bind_eq_some_iff.1 ranged
  unfold skipMark at skipped
  split at skipped
  · assumption
  · cases skipped

theorem RemovalSource.head?_row (source : RemovalSource) {row : Text} (member : row ∈ source.rows) :
    row.head? = some '-' ∨ row.head? = some '\\' := by
  cases remark : Hunk.hasMark '\\' row with
  | true => exact Or.inr (eq_of_beq remark)
  | false =>
      have inBody : row ∈ bodyOf source.rows := List.mem_filter.2 ⟨member, by simp [remark]⟩
      exact Or.inl (eq_of_beq (source.removes row inBody))

theorem RemovalSource.row_opens_nothing (source : RemovalSource) {row : Text}
    (member : row ∈ source.rows) :
    row.startsWith hunkMark = false ∧ row.startsWith fileMark = false := by
  have other : row.head? ≠ some '@' ∧ row.head? ≠ some '+' := by
    rcases source.head?_row member with first | first <;> rw [first] <;> decide
  exact ⟨not_startsWith_of_head? other.1, not_startsWith_of_head? other.2⟩

theorem DeletionSource.head?_notice (source : DeletionSource) {line : Text}
    (member : line ∈ source.notice) : line.head? = some '-' ∨ line = "+++ /dev/null".toList := by
  simp only [notice, List.mem_cons, List.not_mem_nil, or_false] at member
  rcases member with rfl | rfl
  · exact Or.inl rfl
  · exact Or.inr rfl

theorem DeletionSource.head?_preamble (source : DeletionSource) {line : Text}
    (member : line ∈ source.metadata ++ source.notice) : line.head? ≠ some '@' := by
  rcases List.mem_append.1 member with metadata | notice
  · exact head?_ne_of_announces (source.announced line metadata) (by decide)
  · rcases source.head?_notice notice with old | rfl
    · rw [old]
      decide
    · decide

theorem DeletionSource.mem_lines (source : DeletionSource) {line : Text}
    (member : line ∈ source.lines) :
    line ∈ source.metadata ∨ line ∈ source.notice ∨
      ∃ hunk ∈ source.hunks, line = hunk.header ∨ line ∈ hunk.rows := by
  simp only [lines, List.mem_append, List.mem_flatMap, RemovalSource.lines, List.mem_cons] at member
  rcases member with (metadata | notice) | ofHunk
  · exact Or.inl metadata
  · exact Or.inr (Or.inl notice)
  · exact Or.inr (Or.inr ofHunk)

theorem DeletionSource.opens_no_section (source : DeletionSource) :
    ∀ line ∈ source.lines, line.startsWith fileMark = false := by
  intro line member
  rcases source.mem_lines member with metadata | notice | ⟨hunk, -, rfl | row⟩
  · exact not_startsWith_of_head?
      (head?_ne_of_announces (source.announced line metadata) (by decide))
  · rcases source.head?_notice notice with old | rfl
    · apply not_startsWith_of_head?
      rw [old]
      decide
    · decide
  · apply not_startsWith_of_head?
    rw [head?_of_startsWith (startsWith_hunkMark_of_ofHeader? hunk.ranged)]
    decide
  · exact (hunk.row_opens_nothing row).2

theorem DeletionSource.lines_text (source : DeletionSource) :
    source.text.lines = source.lines ++ [[]] := by
  have noticeFree : ∀ line ∈ source.notice, '\n' ∉ line := by
    refine List.forall_mem_cons.2 ⟨?_, List.forall_mem_singleton.2 (by decide)⟩
    rw [List.mem_append, not_or]
    exact ⟨by decide, source.oldName_free⟩
  apply Text.lines_endLines
  intro line member
  rcases source.mem_lines member with metadata | notice | ⟨hunk, -, rfl | row⟩
  · exact source.metadata_free line metadata
  · exact noticeFree line notice
  · exact hunk.header_free
  · exact hunk.rows_free line row

/-! ## Bodies -/

/-- Empty lines beyond the counts. -/
theorem readBody_blank {blanks : List Text} (blank : ∀ line ∈ blanks, line = []) :
    readBody false 0 0 blanks = ([], blanks) := by
  induction blanks with
  | nil => rfl
  | cons line blanks ih =>
      obtain ⟨rfl, later⟩ := List.forall_mem_cons.1 blank
      rw [readBody_beyond rfl, ih later]
      rfl

/-- Lines are those without the empty ones at their end, and the empty ones. -/
theorem exists_blank_end (lines : List Text) :
    ∃ blanks, (∀ line ∈ blanks, line = []) ∧ lines = Text.dropBlankEnd lines ++ blanks := by
  refine ⟨(lines.reverse.takeWhile (·.isEmpty)).reverse, ?_, ?_⟩
  · intro line member
    exact List.isEmpty_iff.1 (List.mem_takeWhile_imp (List.mem_reverse.1 member))
  · rw [Text.dropBlankEnd, ← List.reverse_append, List.takeWhile_append_dropWhile,
      List.reverse_reverse]

theorem dropBlankEnd_concat (lines : List Text) {last : Text} (nonempty : last ≠ []) :
    Text.dropBlankEnd (lines ++ [last]) = lines ++ [last] := by
  have visible : last.isEmpty = false := List.isEmpty_eq_false_iff.2 nonempty
  rw [Text.dropBlankEnd, List.reverse_append, List.reverse_singleton, List.singleton_append,
    List.dropWhile_cons, visible, if_neg Bool.false_ne_true, List.reverse_cons, List.reverse_reverse]

/-- What a deletion announces is read, beyond the counts of a hunk, as lines of its surplus. -/
theorem DeletionSource.readBody_preamble (source : DeletionSource) {blanks : List Text}
    (blank : ∀ line ∈ blanks, line = []) :
    readBody false 0 0 (source.metadata ++ source.notice ++ blanks) =
      ([], source.notice ++ blanks) := by
  have oldLine : isAnnouncement false ("--- ".toList ++ source.oldName) = false := by rfl
  have noSignature : "--- ".toList ++ source.oldName ≠ "-- ".toList := by
    show '-' :: '-' :: '-' :: ' ' :: source.oldName ≠ ['-', '-', ' ']
    simp
  rw [List.append_assoc, readBody_announced_append source.announced, notice, List.cons_append,
    List.cons_append, List.nil_append, readBody_beyond rfl, Bool.false_and, oldLine,
    if_neg Bool.false_ne_true, if_neg noSignature, readBody_beyond rfl, Bool.false_and,
    if_neg (by decide), if_neg (by decide), readBody_blank blank]

/-! ## Hunks -/

theorem RemovalSource.ofLines_rows (source : RemovalSource) {blanks : List Text}
    (blank : ∀ line ∈ blanks, line = []) :
    Hunk.ofLines false source.header (source.rows ++ blanks) = source.hunk := by
  have marked : ∀ row ∈ bodyOf source.rows, Hunk.isBodyLine row = true := by
    intro row member
    rw [Hunk.isBodyLine, source.removes row member, Bool.or_true]
  have oldCount : source.range.oldCount =
      (bodyOf source.rows).countP (!Hunk.hasMark '+' ·) := by
    rw [source.old_count, eq_comm, List.countP_eq_length]
    intro row member
    rw [Hunk.hasMark_unique '+' (by decide) (source.removes row member)]
    rfl
  have newCount : source.range.newCount =
      (bodyOf source.rows).countP (!Hunk.hasMark '-' ·) := by
    rw [source.new_count, eq_comm, List.countP_eq_zero]
    intro row member
    rw [source.removes row member]
    decide
  have body := readBody_rows false marked blanks
  rw [← oldCount, ← newCount, readBody_blank blank] at body
  have dropped : Text.dropBlankEnd blanks = [] := dropBlankEnd_append_blank [] blank
  simp only [Hunk.ofLines, source.ranged, body, dropped, hunk]

/-- The hunks of a deletion, with the empty piece of the text behind its last line feed. -/
theorem cutAt_removals (sources : List RemovalSource) :
    ∃ blanks parts, (∀ line ∈ blanks, line = []) ∧
      cutAt (·.startsWith hunkMark) (sources.flatMap RemovalSource.lines ++ [[]]) =
        (blanks, parts) ∧
      parts.map (fun part => Hunk.ofLines false part.1 part.2) =
        sources.map RemovalSource.hunk := by
  induction sources with
  | nil => exact ⟨[[]], [], fun line member => List.mem_singleton.1 member, rfl, rfl⟩
  | cons source rest ih =>
      obtain ⟨blanks, parts, blank, cut, read⟩ := ih
      have opens := startsWith_hunkMark_of_ofHeader? source.ranged
      have closed : ∀ row ∈ source.rows, row.startsWith hunkMark = false :=
        fun row member => (source.row_opens_nothing member).1
      refine ⟨[], (source.header, source.rows ++ blanks) :: parts, nofun, ?_, ?_⟩
      · rw [List.flatMap_cons, RemovalSource.lines, List.cons_append, List.cons_append,
          List.append_assoc, cutAt_cons (·.startsWith hunkMark) opens, cutAt_append closed, cut]
      · rw [List.map_cons, List.map_cons, source.ofLines_rows blank, read]

/-- Where no section follows, every hunk is read by itself. -/
theorem readHunks_false (parts : List (Text × List Text)) :
    readHunks false parts = parts.map fun part => Hunk.ofLines false part.1 part.2 := by
  rcases List.eq_nil_or_concat parts with rfl | ⟨front, last, rfl⟩
  · rfl
  · rw [List.concat_eq_append, readHunks_append, List.map_append]
    rfl

/-- The last hunk in front of a deletion.  If a mail ends beyond its counts it stays what it is, and
if not, the notice of the deletion becomes a part of its surplus. -/
theorem Hunk.ofLines_preamble {header : Text} {rows : List Text} {range : HunkRange}
    (ranged : HunkRange.ofHeader? header = some range) (used : range.UsedUp rows)
    (source : DeletionSource) {blanks : List Text} (blank : ∀ line ∈ blanks, line = []) :
    (MailEnds range.oldCount range.newCount rows →
        Hunk.ofLines false header (rows ++ (source.metadata ++ source.notice ++ blanks)) =
          Hunk.ofLines false header rows) ∧
      (¬MailEnds range.oldCount range.newCount rows →
        ∃ dropped, (∀ line ∈ dropped, line = []) ∧
          Hunk.ofLines false header (rows ++ (source.metadata ++ source.notice ++ blanks)) =
            { Hunk.ofLines false header rows with
              surplus := (Hunk.ofLines false header rows).surplus ++ dropped ++ source.notice }) := by
  obtain ⟨stopped, stops, reads⟩ := readBody_append used.old used.new
  have read := reads false (source.metadata ++ source.notice ++ blanks) nofun
  rw [source.readBody_preamble blank] at read
  constructor
  · intro mail
    rw [stops.2 mail, if_pos rfl, List.append_nil] at read
    simp only [Hunk.ofLines, ranged, read]
  · intro noMail
    have goesOn : stopped = false := Bool.eq_false_iff.2 fun stop => noMail (stops.1 stop)
    rw [goesOn, if_neg Bool.false_ne_true] at read
    obtain ⟨dropped, droppedBlank, whole⟩ :=
      exists_blank_end (readBody false range.oldCount range.newCount rows).2
    refine ⟨dropped, droppedBlank, ?_⟩
    have kept : Text.dropBlankEnd ((readBody false range.oldCount range.newCount rows).2 ++
        (source.notice ++ blanks)) =
          (readBody false range.oldCount range.newCount rows).2 ++ source.notice := by
      have notice : source.notice =
          ["--- ".toList ++ source.oldName] ++ ["+++ /dev/null".toList] := rfl
      rw [← List.append_assoc, dropBlankEnd_append_blank _ blank, notice, ← List.append_assoc]
      exact dropBlankEnd_concat _ (by decide)
    simp only [Hunk.ofLines, ranged, read, kept]
    rw [← whole]

/-! ## Sections and texts -/

/-- A section in front of a deletion.  It takes up the hunks of the deletion, and unless it is closed
the last of its own hunks takes up the notice. -/
theorem FilePatch.ofLines_deletion (opening : Text) {body : List Text}
    (usedUp : SectionUsedUp body) (source : DeletionSource) :
    ∃ kept, FilePatch.ofLines false (opening, body ++ (source.lines ++ [[]])) =
        ⟨(FilePatch.ofLines false (opening, body)).path,
          kept ++ source.hunks.map RemovalSource.hunk⟩ ∧
      (SectionClosed body → kept = (FilePatch.ofLines false (opening, body)).hunks) ∧
      (¬SectionClosed body →
        SurplusGrows source.notice (FilePatch.ofLines false (opening, body)).hunks kept) := by
  obtain ⟨blanks, parts, blank, cut, read⟩ := cutAt_removals source.hunks
  have noHunk : ∀ line ∈ source.metadata ++ source.notice, line.startsWith hunkMark = false :=
    fun line member => not_startsWith_of_head? (source.head?_preamble member)
  have cutDeletion : cutAt (·.startsWith hunkMark) (source.lines ++ [[]]) =
      (source.metadata ++ source.notice ++ blanks, parts) := by
    rw [DeletionSource.lines, List.append_assoc, cutAt_append noHunk, cut]
  rcases closed_or_last_opening (·.startsWith hunkMark) body with
    noneOpens | ⟨before, header, rows, rfl, opens, noneOpens⟩
  · have closed : SectionClosed body := by
      intro part member
      rw [cutAt_of_closed noneOpens] at member
      exact absurd member (Option.not_mem_none part)
    refine ⟨[], ?_, fun _ => ?_, fun isOpen => absurd closed isOpen⟩
    · simp only [FilePatch.ofLines, cutAt_append noneOpens, cutDeletion, readHunks_false, read,
        List.nil_append]
    · simp only [FilePatch.ofLines, cutAt_of_closed noneOpens]
      rfl
  · have last : (cutAt (·.startsWith hunkMark) (before ++ header :: rows)).2.getLast? =
        some (header, rows) := by
      rw [cutAt_append_cons (·.startsWith hunkMark) before opens, cutAt_of_closed noneOpens,
        List.getLast?_concat]
    obtain ⟨range, ranged, used⟩ := usedUp _ last
    have closed_iff : SectionClosed (before ++ header :: rows) ↔
        MailEnds range.oldCount range.newCount rows := by
      simp only [SectionClosed, last, Option.mem_some_iff, forall_eq', Option.mem_def.1 ranged]
    obtain ⟨stays, grows⟩ := Hunk.ofLines_preamble ranged used source blank
    have alone : (FilePatch.ofLines false (opening, before ++ header :: rows)).hunks =
        (cutAt (·.startsWith hunkMark) before).2.map
          (fun part => Hunk.ofLines false part.1 part.2) ++ [Hunk.ofLines false header rows] := by
      simp only [FilePatch.ofLines, cutAt_append_cons (·.startsWith hunkMark) before opens,
        cutAt_of_closed noneOpens, readHunks_append]
    have whole : (FilePatch.ofLines false
        (opening, (before ++ header :: rows) ++ (source.lines ++ [[]]))).hunks =
        ((cutAt (·.startsWith hunkMark) before).2.map
          (fun part => Hunk.ofLines false part.1 part.2) ++
          [Hunk.ofLines false header (rows ++ (source.metadata ++ source.notice ++ blanks))]) ++
          source.hunks.map RemovalSource.hunk := by
      rw [List.append_assoc, List.cons_append]
      simp only [FilePatch.ofLines, cutAt_append_cons (·.startsWith hunkMark) before opens,
        cutAt_append noneOpens, cutDeletion, readHunks_false, List.map_append, List.map_cons, read,
        List.append_assoc, List.singleton_append]
    refine ⟨_, congrArg (FilePatch.mk _) whole, fun closed => ?_, fun isOpen => ?_⟩
    · rw [alone, stays (closed_iff.1 closed)]
    · obtain ⟨dropped, droppedBlank, grown⟩ := grows fun mail => isOpen (closed_iff.2 mail)
      exact ⟨_, _, dropped, alone, droppedBlank, by rw [grown]⟩

/-- **A deletion behind a patch falls to the last section of the patch.**  The section gains the
hunks of the deletion, and unless no hunk of it takes up what follows, its last hunk gains the names
as surplus; all else is read as if the patch stood alone.  So nothing is gained exactly when the
deletion has no hunks and the section is closed. -/
theorem readPatch_append_deletion {first : Text} (ended : first.endsWith ['\n'] = true)
    (usedUp : EndsUsedUp first.endedLines) (source : DeletionSource) :
    (∃ sections path hunks kept, readPatch first = sections ++ [⟨path, hunks⟩] ∧
      readPatch (first ++ source.text) =
        sections ++ [⟨path, kept ++ source.hunks.map RemovalSource.hunk⟩] ∧
      (EndsClosed first.endedLines → kept = hunks) ∧
      (¬EndsClosed first.endedLines → SurplusGrows source.notice hunks kept)) ∧
    (readPatch (first ++ source.text) = readPatch first ↔
      EndsClosed first.endedLines ∧ source.hunks = []) := by
  obtain ⟨front, rfl⟩ := Text.eq_append_newline ended
  have whole : Text.lines (front ++ ['\n'] ++ source.text) =
      front.lines ++ (source.lines ++ [[]]) := by
    rw [List.append_assoc, List.singleton_append, Text.lines_append_newline, source.lines_text]
  have alone : Text.lines (front ++ ['\n']) = front.lines ++ [[]] :=
    Text.lines_append_newline front []
  rw [Text.endedLines_append_newline] at usedUp ⊢
  rcases closed_or_last_opening (·.startsWith fileMark) front.lines with
    noneOpens | ⟨before, opening, body, lines, opens, noneOpens⟩
  · obtain ⟨part, member, -⟩ := usedUp
    rw [cutAt_of_closed noneOpens] at member
    exact absurd member (Option.not_mem_none part)
  have last : (cutAt (·.startsWith fileMark) front.lines).2.getLast? = some (opening, body) := by
    rw [lines, cutAt_append_cons (·.startsWith fileMark) before opens, cutAt_of_closed noneOpens,
      List.getLast?_concat]
  have bodyUsedUp : SectionUsedUp body := by
    obtain ⟨part, member, used⟩ := usedUp
    rw [last, Option.mem_some_iff] at member
    rw [← member] at used
    exact used
  have closed_iff : EndsClosed front.lines ↔ SectionClosed body := by
    simp only [EndsClosed, last, Option.mem_some_iff, forall_eq']
  have opensNothing : ∀ line ∈ source.lines ++ [[]], line.startsWith fileMark = false :=
    List.forall_mem_append.2 ⟨source.opens_no_section, fun line member => by
      rw [List.mem_singleton.1 member]; rfl⟩
  have empty : cutAt (·.startsWith fileMark) [[]] = ([[]], []) := rfl
  obtain ⟨kept, taken, stays, grows⟩ := FilePatch.ofLines_deletion opening bodyUsedUp source
  rw [← closed_iff] at stays grows
  have readAlone : readPatch (front ++ ['\n']) =
      (cutAt (·.startsWith fileMark) before).2.map (FilePatch.ofLines true) ++
        [FilePatch.ofLines false (opening, body)] := by
    rw [readPatch, alone, lines, readSections_of_last opens noneOpens, empty]
    exact congrArg (_ ++ [·]) (FilePatch.ofLines_append bodyUsedUp.settled addsNothing_empty)
  have readWhole : readPatch (front ++ ['\n'] ++ source.text) =
      (cutAt (·.startsWith fileMark) before).2.map (FilePatch.ofLines true) ++
        [⟨(FilePatch.ofLines false (opening, body)).path,
          kept ++ source.hunks.map RemovalSource.hunk⟩] := by
    rw [readPatch, whole, lines, readSections_of_last opens noneOpens,
      cutAt_of_closed opensNothing]
    exact congrArg (_ ++ [·]) taken
  refine ⟨⟨_, _, _, kept, readAlone, readWhole, stays, grows⟩, ?_⟩
  rw [readWhole, readAlone, List.append_cancel_left_eq, List.cons.injEq,
    and_iff_left rfl, FilePatch.mk.injEq, and_iff_right rfl,
    grown_append_eq_iff (List.cons_ne_nil _ _) stays grows, List.map_eq_nil_iff]

/-- The announcement of a deleted file without content: there is nothing to remove. -/
def emptyDeletion : DeletionSource where
  metadata := ["diff --git a/b.txt b/b.txt".toList, "deleted file mode 100644".toList]
  oldName := "a/b.txt".toList
  hunks := []
  announced := by decide
  metadata_free := by decide
  oldName_free := by decide

/-- A patch for one file, as a mail. -/
def mailedChange : Text := "+++ b/a.txt\n@@ -1 +1 @@\n-x\n+y\n-- \n2.43.0\n".toList

/-- Behind the end of a mail a deletion without hunks leaves no trace. -/
theorem emptyDeletion_behind_mail :
    mailedChange.endsWith ['\n'] = true ∧ EndsUsedUp mailedChange.endedLines ∧
      EndsClosed mailedChange.endedLines ∧
      readPatch (mailedChange ++ emptyDeletion.text) = readPatch mailedChange := by
  have ended : mailedChange.endsWith ['\n'] = true := by decide
  have usedUp : EndsUsedUp mailedChange.endedLines := by decide +kernel
  have closed : EndsClosed mailedChange.endedLines := by decide +kernel
  exact ⟨ended, usedUp, closed,
    (readPatch_append_deletion ended usedUp emptyDeletion).2.2 ⟨closed, rfl⟩⟩

/-- The hunk that removes the one line of a file. -/
def lineRemoval : RemovalSource where
  header := "@@ -1 +0,0 @@".toList
  range := ⟨1, 1, 0, 0⟩
  rows := ["-x".toList]
  ranged := by decide +kernel
  header_free := by decide
  rows_free := by decide
  removes := by decide
  old_count := rfl
  new_count := rfl

/-- The deletion of a file with one line. -/
def lineDeletion : DeletionSource where
  metadata := ["diff --git a/b.txt b/b.txt".toList, "deleted file mode 100644".toList,
    "index 587be6b..0000000".toList]
  oldName := "a/b.txt".toList
  hunks := [lineRemoval]
  announced := by decide
  metadata_free := by decide
  oldName_free := by decide

/-- A patch for one file. -/
def lineChange : Text :=
  ("diff --git a/a.txt b/a.txt\nindex 587be6b..975fbec 100644\n--- a/a.txt\n+++ b/a.txt\n" ++
    "@@ -1 +1 @@\n-x\n+y\n").toList

/-- A deletion behind a patch leaks into the file in front: the hunk that removes the line of the
deleted file is read as one of its hunks. -/
theorem lineDeletion_leaks :
    ¬∀ (first : Text) (source : DeletionSource), first.endsWith ['\n'] = true →
      EndsUsedUp first.endedLines → readPatch (first ++ source.text) = readPatch first := by
  intro apart
  have usedUp : EndsUsedUp lineChange.endedLines := by decide +kernel
  have same := apart lineChange lineDeletion (by decide +kernel) usedUp
  exact absurd same (by decide +kernel)

end Traceability
