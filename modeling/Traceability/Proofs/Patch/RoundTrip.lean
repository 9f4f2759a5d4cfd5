/-
# Traceability.Proofs.Patch.RoundTrip -- a written patch is read back

A `SectionSource` is a section of a patch as it is written: the lines that
announce it, the old and the new name, and its hunks, each a `HunkSource` with
its ranges, what stands behind them, and its rows.  Rows are the lines of the
body with any number of remarks, lines that begin with a backslash, among them.
The counts of a header are those of the body, and no row looks like the opening
of a section; that is all that is asked of a body, so its lines may well look
like announcements, names or the end of a mail.

`readPatch_patchText`: reading the text gives, for every section, its path and
its hunks, with the same ranges and lines and without surplus.  What carries the
proof is `readBody_rows`: as long as rows are left, the two counts say how many
of the rows left are in the old and in the new file.
-/
import Traceability.Proofs.Text.Lines
import Traceability.Proofs.Patch.Header

namespace Traceability

set_option autoImplicit false

/-! ## Patches as they are written -/

/-- Does a line have one of the marks that lines of a body have? -/
def Hunk.isBodyLine (line : Text) : Bool :=
  hasMark ' ' line || hasMark '+' line || hasMark '-' line

/-- The lines of the body among some rows: all but the remarks. -/
def bodyOf (rows : List Text) : List Text := rows.filter (!Hunk.hasMark '\\' ·)

theorem bodyOf_cons_remark {row : Text} (remark : Hunk.hasMark '\\' row = true)
    (rows : List Text) : bodyOf (row :: rows) = bodyOf rows := by
  simp [bodyOf, remark]

theorem bodyOf_cons_row {row : Text} (noRemark : Hunk.hasMark '\\' row = false)
    (rows : List Text) : bodyOf (row :: rows) = row :: bodyOf rows := by
  simp [bodyOf, noRemark]

/-- A hunk as it is written. -/
structure HunkSource where
  range : HunkRange
  /-- What stands behind the ranges in the header. -/
  trailer : Text
  /-- The lines of the body, and remarks anywhere among them. -/
  rows : List Text
  trailer_free : '\n' ∉ trailer
  rows_free : ∀ row ∈ rows, '\n' ∉ row
  marked : ∀ row ∈ bodyOf rows, Hunk.isBodyLine row = true
  no_section : ∀ row ∈ bodyOf rows, row.startsWith fileMark = false
  old_count : range.oldCount = (bodyOf rows).countP (!Hunk.hasMark '+' ·)
  new_count : range.newCount = (bodyOf rows).countP (!Hunk.hasMark '-' ·)

namespace HunkSource

/-- The hunk that is written. -/
def hunk (source : HunkSource) : Hunk :=
  ⟨source.range.header source.trailer, some source.range, bodyOf source.rows, []⟩

/-- The lines of the hunk. -/
def lines (source : HunkSource) : List Text := source.range.header source.trailer :: source.rows

end HunkSource

/-- A section of a patch as it is written. -/
structure SectionSource where
  /-- Lines that announce the section. -/
  metadata : List Text
  oldName : Text
  path : String
  hunks : List HunkSource
  announced : ∀ line ∈ metadata, line.startsWithAny announcements = true
  metadata_free : ∀ line ∈ metadata, '\n' ∉ line
  oldName_free : '\n' ∉ oldName
  path_free : '\n' ∉ path.toList
  path_trimmed : Text.trim path.toList = path.toList

namespace SectionSource

/-- The section that is written. -/
def patch (source : SectionSource) : FilePatch := ⟨source.path, source.hunks.map HunkSource.hunk⟩

/-- The lines in front of the new name. -/
def opening (source : SectionSource) : List Text :=
  source.metadata ++ ["--- ".toList ++ source.oldName]

/-- The line with the new name. -/
def nameLine (source : SectionSource) : Text := fileMark ++ source.path.toList

/-- The lines of the hunks. -/
def hunkLines (source : SectionSource) : List Text := source.hunks.flatMap HunkSource.lines

/-- The lines of the section. -/
def lines (source : SectionSource) : List Text :=
  source.opening ++ source.nameLine :: source.hunkLines

end SectionSource

/-- The text of a patch, every line ended by a line feed. -/
def patchText (sources : List SectionSource) : Text :=
  Text.endLines (sources.flatMap SectionSource.lines)

/-! ## How lines begin -/

theorem head?_of_startsWith {line start : Text} {c : Char}
    (begins : line.startsWith (c :: start) = true) : line.head? = some c := by
  obtain ⟨rest, rfl⟩ := List.isPrefixOf_iff_prefix.1 begins
  rfl

theorem startsWith_append (start rest : Text) : (start ++ rest).startsWith start = true :=
  List.isPrefixOf_iff_prefix.2 (List.prefix_append start rest)

theorem not_startsWith_of_head? {line start : Text} {c : Char} (other : line.head? ≠ some c) :
    line.startsWith (c :: start) = false :=
  Bool.eq_false_iff.2 fun begins => other (head?_of_startsWith begins)

/-- The first characters of announcements. -/
theorem head?_of_announces {line : Text} (announces : line.startsWithAny announcements = true) :
    line.head? ∈ [some 'd', some 'i', some 'n', some 's', some 'r'] := by
  obtain ⟨start, among, begins⟩ := List.any_eq_true.1 announces
  have firsts : ∀ start ∈ announcements,
      start ≠ [] ∧ start.head? ∈ [some 'd', some 'i', some 'n', some 's', some 'r'] := by decide
  obtain ⟨nonempty, first⟩ := firsts start among
  obtain ⟨c, rest, rfl⟩ := List.exists_cons_of_ne_nil nonempty
  rw [head?_of_startsWith begins]
  exact first

theorem head?_ne_of_announces {line : Text} (announces : line.startsWithAny announcements = true)
    {c : Char} (other : some c ∉ [some 'd', some 'i', some 'n', some 's', some 'r']) :
    line.head? ≠ some c := by
  intro first
  rw [← first] at other
  exact other (head?_of_announces announces)

/-! ## Cutting -/

theorem cutAt_append {opens : Text → Bool} {before : List Text}
    (closed : ∀ line ∈ before, opens line = false) (rest : List Text) :
    cutAt opens (before ++ rest) = (before ++ (cutAt opens rest).1, (cutAt opens rest).2) := by
  induction before with
  | nil => rfl
  | cons line before ih =>
      rw [List.cons_append, cutAt, ih fun line member => closed line (List.mem_cons_of_mem _ member)]
      simp only [closed line List.mem_cons_self, Bool.false_eq_true, if_false, List.cons_append]

theorem cutAt_of_closed {opens : Text → Bool} {lines : List Text}
    (closed : ∀ line ∈ lines, opens line = false) : cutAt opens lines = (lines, []) := by
  have cut := cutAt_append closed []
  simpa only [List.append_nil, cutAt] using cut

theorem cutAt_cons (opens : Text → Bool) {line : Text} (here : opens line = true)
    (rest : List Text) :
    cutAt opens (line :: rest) = ([], (line, (cutAt opens rest).1) :: (cutAt opens rest).2) := by
  simp only [cutAt, here, if_true]

/-! ## Bodies -/

theorem readBody_remark {sectionFollows : Bool} {old new : Nat} {line : Text} {rest : List Text}
    (remark : Hunk.hasMark '\\' line = true) :
    readBody sectionFollows old new (line :: rest) = readBody sectionFollows old new rest := by
  rw [readBody, if_pos remark]

theorem readBody_counted {sectionFollows : Bool} {old new : Nat} {line : Text} {rest : List Text}
    (noRemark : Hunk.hasMark '\\' line = false) (counted : 0 < old ∨ 0 < new) :
    readBody sectionFollows old new (line :: rest) =
      (line :: (readBody sectionFollows (takeCounts line old new).1
          (takeCounts line old new).2 rest).1,
        (readBody sectionFollows (takeCounts line old new).1
          (takeCounts line old new).2 rest).2) := by
  rw [readBody, if_neg (by rw [noRemark]; exact Bool.false_ne_true)]
  simp only [Bool.or_eq_true, decide_eq_true_eq, counted, if_true]

/-- Once the counts are used up, no line is within them. -/
theorem readBody_zero_fst (sectionFollows : Bool) (lines : List Text) :
    (readBody sectionFollows 0 0 lines).1 = [] := by
  induction lines with
  | nil => rfl
  | cons line rest ih =>
      rw [readBody]
      split
      · exact ih
      · simp only [Nat.lt_irrefl, decide_false, Bool.or_false, Bool.false_eq_true, if_false]
        split
        · exact ih
        · split
          · rfl
          · exact ih

/-- **The counts follow the rows.**  With as many lines to come in the old and in the new file as
the rows have, the rows are read up to the last, and what follows them is beyond the counts. -/
theorem readBody_rows (sectionFollows : Bool) {rows : List Text}
    (marked : ∀ row ∈ bodyOf rows, Hunk.isBodyLine row = true) (tail : List Text) :
    readBody sectionFollows ((bodyOf rows).countP (!Hunk.hasMark '+' ·))
        ((bodyOf rows).countP (!Hunk.hasMark '-' ·)) (rows ++ tail) =
      (bodyOf rows, (readBody sectionFollows 0 0 tail).2) := by
  induction rows with
  | nil => exact Prod.ext (readBody_zero_fst sectionFollows tail) rfl
  | cons row rows ih =>
      cases remark : Hunk.hasMark '\\' row with
      | true =>
          rw [bodyOf_cons_remark remark] at marked ⊢
          rw [List.cons_append, readBody_remark remark]
          exact ih marked
      | false =>
          rw [bodyOf_cons_row remark] at marked ⊢
          have later := ih fun line member => marked line (List.mem_cons_of_mem _ member)
          have line := marked row List.mem_cons_self
          simp only [Hunk.isBodyLine, Bool.or_eq_true] at line
          rw [List.cons_append]
          -- By its mark a row is a line of the old file, of the new one, or of both.
          rcases line with (space | plus) | minus
          · have noPlus := Hunk.hasMark_unique '+' (by decide) space
            have noMinus := Hunk.hasMark_unique '-' (by decide) space
            rw [readBody_counted remark (by simp [noPlus])]
            simp only [List.countP_cons, noPlus, noMinus, takeCounts, Bool.not_false, if_true,
              Bool.false_eq_true, if_false, Nat.add_sub_cancel, later]
          · have noMinus := Hunk.hasMark_unique '-' (by decide) plus
            rw [readBody_counted remark (by simp [noMinus])]
            simp only [List.countP_cons, plus, noMinus, takeCounts, Bool.not_false, Bool.not_true,
              if_true, Bool.false_eq_true, if_false, Nat.add_zero, Nat.add_sub_cancel, later]
          · have noPlus := Hunk.hasMark_unique '+' (by decide) minus
            rw [readBody_counted remark (by simp [noPlus])]
            simp only [List.countP_cons, minus, noPlus, takeCounts, Bool.not_false, Bool.not_true,
              if_true, Bool.false_eq_true, if_false, Nat.add_zero, Nat.add_sub_cancel, later]

/-! ## Hunks -/

theorem HunkSource.ofLines_rows (source : HunkSource) (sectionFollows : Bool) (tail : List Text)
    (closed : Text.dropBlankEnd (readBody sectionFollows 0 0 tail).2 = []) :
    Hunk.ofLines sectionFollows (source.range.header source.trailer) (source.rows ++ tail) =
      source.hunk := by
  have body := readBody_rows sectionFollows source.marked tail
  rw [← source.old_count, ← source.new_count] at body
  simp only [Hunk.ofLines, HunkRange.ofHeader?_header, body, closed, HunkSource.hunk]

theorem header_opens (range : HunkRange) (trailer : Text) :
    (range.header trailer).startsWith hunkMark = true := by
  simp only [HunkRange.header, List.append_assoc, List.cons_append]
  rfl

theorem HunkSource.head?_row (source : HunkSource) {row : Text} (member : row ∈ source.rows) :
    row.head? ∈ [some ' ', some '+', some '-', some '\\'] := by
  cases remark : Hunk.hasMark '\\' row with
  | true =>
      rw [eq_of_beq remark]
      decide
  | false =>
      have marked := source.marked row (List.mem_filter.2 ⟨member, by simp [remark]⟩)
      simp only [Hunk.isBodyLine, Hunk.hasMark, Bool.or_eq_true, beq_iff_eq] at marked
      rcases marked with (space | plus) | minus
      · rw [space]; decide
      · rw [plus]; decide
      · rw [minus]; decide

theorem HunkSource.row_opens_no_hunk (source : HunkSource) {row : Text}
    (member : row ∈ source.rows) : row.startsWith hunkMark = false := by
  apply not_startsWith_of_head?
  intro first
  have heads := source.head?_row member
  rw [first] at heads
  exact absurd heads (by decide)

theorem HunkSource.cutAt_lines (source : HunkSource) (rest : List Text) :
    cutAt (·.startsWith hunkMark) (source.lines ++ rest) =
      ([], (source.range.header source.trailer,
        source.rows ++ (cutAt (·.startsWith hunkMark) rest).1) ::
          (cutAt (·.startsWith hunkMark) rest).2) := by
  have rowsClosed : ∀ row ∈ source.rows, row.startsWith hunkMark = false :=
    fun row member => source.row_opens_no_hunk member
  rw [HunkSource.lines, List.cons_append,
    cutAt_cons (·.startsWith hunkMark) (header_opens source.range source.trailer),
    cutAt_append rowsClosed]

/-- The hunks of a section are read one by one; only the last one sees what follows the section. -/
theorem readHunks_lines (sectionFollows : Bool) {tail : List Text}
    (noHunk : ∀ line ∈ tail, line.startsWith hunkMark = false)
    (closed : Text.dropBlankEnd (readBody sectionFollows 0 0 tail).2 = [])
    (sources : List HunkSource) :
    readHunks sectionFollows
        (cutAt (·.startsWith hunkMark) (sources.flatMap HunkSource.lines ++ tail)).2 =
      sources.map HunkSource.hunk := by
  induction sources with
  | nil =>
      rw [List.flatMap_nil, List.nil_append, cutAt_of_closed noHunk]
      rfl
  | cons source rest ih =>
      rw [List.flatMap_cons, List.append_assoc, source.cutAt_lines]
      cases rest with
      | nil =>
          simp only [List.flatMap_nil, List.nil_append, cutAt_of_closed noHunk, readHunks,
            source.ofLines_rows sectionFollows tail closed, List.map_cons, List.map_nil]
      | cons next others =>
          -- The next header stands right after the rows.
          have whole := source.ofLines_rows false [] rfl
          rw [List.flatMap_cons, List.append_assoc, next.cutAt_lines] at ih ⊢
          simp only [readHunks, whole, ih, List.map_cons]

/-! ## Sections -/

/-- What follows the hunks of a section: the opening of the next one, or the empty piece after the
last line feed. -/
def leading : List SectionSource → List Text
  | [] => [[]]
  | source :: _ => source.opening

/-- The sections cut at the lines with their names. -/
def sectionParts : List SectionSource → List (Text × List Text)
  | [] => []
  | source :: rest => (source.nameLine, source.hunkLines ++ leading rest) :: sectionParts rest

theorem head?_leading (sources : List SectionSource) {line : Text}
    (member : line ∈ leading sources) : line.head? ≠ some '+' ∧ line.head? ≠ some '@' := by
  cases sources with
  | nil =>
      rw [List.mem_singleton.1 member]
      decide
  | cons source rest =>
      rcases List.mem_append.1 member with metadata | name
      · have announces := source.announced line metadata
        exact ⟨head?_ne_of_announces announces (by decide),
          head?_ne_of_announces announces (by decide)⟩
      · have dash : line.head? = some '-' := by rw [List.mem_singleton.1 name]; rfl
        rw [dash]
        decide

theorem leading_opens_no_hunk (sources : List SectionSource) :
    ∀ line ∈ leading sources, line.startsWith hunkMark = false :=
  fun _ member => not_startsWith_of_head? (head?_leading sources member).2

theorem leading_opens_no_section (sources : List SectionSource) :
    ∀ line ∈ leading sources, line.startsWith fileMark = false :=
  fun _ member => not_startsWith_of_head? (head?_leading sources member).1

/-- Announcements among the lines beyond the counts are skipped. -/
theorem readBody_announced_append {sectionFollows : Bool} {metadata : List Text}
    (announced : ∀ line ∈ metadata, line.startsWithAny announcements = true) (rest : List Text) :
    readBody sectionFollows 0 0 (metadata ++ rest) = readBody sectionFollows 0 0 rest := by
  induction metadata with
  | nil => rfl
  | cons line metadata ih =>
      obtain ⟨announces, later⟩ := List.forall_mem_cons.1 announced
      have noRemark : Hunk.hasMark '\\' line = false :=
        beq_eq_false_iff_ne.2 (head?_ne_of_announces announces (by decide))
      rw [List.cons_append, readBody]
      simp only [noRemark, isAnnouncement, announces, Bool.true_or, Nat.lt_irrefl, decide_false,
        Bool.or_false, Bool.false_eq_true, if_false, if_true]
      exact ih later

/-- The old name right before a section is skipped too. -/
theorem readBody_oldName {name : Text} (old : name.startsWith "--- ".toList = true) :
    readBody true 0 0 [name] = ([], []) := by
  have noRemark : Hunk.hasMark '\\' name = false := by
    have first : name.head? = some '-' := head?_of_startsWith old
    simp [Hunk.hasMark, first]
  rw [readBody]
  simp only [noRemark, isAnnouncement, old, List.isEmpty_nil, Bool.and_true, Bool.or_true,
    Nat.lt_irrefl, decide_false, Bool.or_false, Bool.false_eq_true, if_false, if_true]
  rfl

/-- What follows a section leaves nothing behind. -/
theorem readBody_leading (sources : List SectionSource) :
    Text.dropBlankEnd (readBody (!sources.isEmpty) 0 0 (leading sources)).2 = [] := by
  cases sources with
  | nil => rfl
  | cons source rest =>
      rw [List.isEmpty_cons, Bool.not_false, leading, SectionSource.opening,
        readBody_announced_append source.announced,
        readBody_oldName (startsWith_append "--- ".toList source.oldName)]
      rfl

theorem SectionSource.hunkLines_open_no_section (source : SectionSource) :
    ∀ line ∈ source.hunkLines, line.startsWith fileMark = false := by
  intro line member
  obtain ⟨hunk, among, ofHunk⟩ := List.mem_flatMap.1 member
  rcases List.mem_cons.1 ofHunk with rfl | row
  · apply not_startsWith_of_head?
    rw [head?_of_startsWith (header_opens hunk.range hunk.trailer)]
    decide
  · cases remark : Hunk.hasMark '\\' line with
    | true =>
        apply not_startsWith_of_head?
        rw [eq_of_beq remark]
        decide
    | false => exact hunk.no_section line (List.mem_filter.2 ⟨row, by simp [remark]⟩)

/-- Cutting at the names gives the sections, each with the opening of the next one at its end. -/
theorem cutAt_sections (sources : List SectionSource) :
    cutAt (·.startsWith fileMark) (sources.flatMap SectionSource.lines ++ [[]]) =
      (leading sources, sectionParts sources) := by
  induction sources with
  | nil => rfl
  | cons source rest ih =>
      have named : source.nameLine.startsWith fileMark = true :=
        startsWith_append fileMark source.path.toList
      have opening : ∀ line ∈ source.opening, line.startsWith fileMark = false :=
        leading_opens_no_section (source :: rest)
      rw [List.flatMap_cons, SectionSource.lines]
      simp only [List.append_assoc, List.cons_append]
      rw [cutAt_append opening,
        cutAt_cons (·.startsWith fileMark) named,
        cutAt_append source.hunkLines_open_no_section, ih]
      simp only [List.append_nil, sectionParts, leading]

theorem readSections_parts (sources : List SectionSource) :
    readSections (sectionParts sources) = sources.map SectionSource.patch := by
  induction sources with
  | nil => rfl
  | cons source rest ih =>
      have path : String.ofList (Text.trim (source.nameLine.drop fileMark.length)) = source.path := by
        rw [SectionSource.nameLine, List.drop_left, source.path_trimmed, String.ofList_toList]
      have follows : (sectionParts rest).isEmpty = rest.isEmpty := by cases rest <;> rfl
      have hunks := readHunks_lines (!rest.isEmpty) (leading_opens_no_hunk rest)
        (readBody_leading rest) source.hunks
      rw [← SectionSource.hunkLines] at hunks
      simp only [sectionParts, readSections, path, follows, hunks, ih, List.map_cons,
        SectionSource.patch]

/-! ## Texts -/

theorem ofNumber_free (n : Nat) : '\n' ∉ Text.ofNumber n :=
  fun member => absurd (Text.isDigit_of_mem_ofNumber member) (by decide)

theorem header_free {range : HunkRange} {trailer : Text} (free : '\n' ∉ trailer) :
    '\n' ∉ range.header trailer := by
  simp only [HunkRange.header, List.mem_append, List.mem_cons, List.not_mem_nil, or_false, not_or,
    ofNumber_free, free]
  decide

theorem SectionSource.lines_free (source : SectionSource) :
    ∀ line ∈ source.lines, '\n' ∉ line := by
  intro line member
  rcases List.mem_append.1 member with opening | later
  · rcases List.mem_append.1 opening with metadata | name
    · exact source.metadata_free line metadata
    · rw [List.mem_singleton.1 name, List.mem_append, not_or]
      exact ⟨by decide, source.oldName_free⟩
  · rcases List.mem_cons.1 later with rfl | hunkLine
    · rw [SectionSource.nameLine, List.mem_append, not_or]
      exact ⟨by decide, source.path_free⟩
    · obtain ⟨hunk, -, ofHunk⟩ := List.mem_flatMap.1 hunkLine
      rcases List.mem_cons.1 ofHunk with rfl | row
      · exact header_free hunk.trailer_free
      · exact hunk.rows_free line row

/-- **A written patch is read back**: the paths in their order, and for each the hunks with their
ranges, their lines and no surplus. -/
theorem readPatch_patchText (sources : List SectionSource) :
    readPatch (patchText sources) = sources.map SectionSource.patch := by
  have free : ∀ line ∈ sources.flatMap SectionSource.lines, '\n' ∉ line := by
    intro line member
    obtain ⟨source, -, ofSource⟩ := List.mem_flatMap.1 member
    exact source.lines_free line ofSource
  rw [readPatch, patchText, Text.lines_endLines free, cutAt_sections]
  exact readSections_parts sources

/-- A hunk with words behind its ranges, a remark, and a removed line that looks like an old name. -/
def remarkedHunk : HunkSource where
  range := ⟨1, 2, 1, 2⟩
  trailer := " def f():".toList
  rows := ["--- a".toList, "\\ No newline at end of file".toList, "+b".toList, " c".toList]
  trailer_free := by decide
  rows_free := by decide
  marked := by decide
  no_section := by decide
  old_count := by decide
  new_count := by decide

/-- A section that is announced, with that hunk. -/
def announcedSection : SectionSource where
  metadata := ["diff --git a/f.py b/f.py".toList]
  oldName := "a/f.py".toList
  path := "f.py"
  hunks := [remarkedHunk]
  announced := by decide
  metadata_free := by decide
  oldName_free := by decide
  path_free := by decide
  path_trimmed := by decide

/-- Its hunk is read back without the remark. -/
theorem readPatch_announcedSection :
    readPatch (patchText [announcedSection]) =
      [⟨"f.py", [⟨"@@ -1,2 +1,2 @@ def f():".toList, some ⟨1, 2, 1, 2⟩,
        ["--- a".toList, "+b".toList, " c".toList], []⟩]⟩] :=
  (readPatch_patchText [announcedSection]).trans (by decide +kernel)

end Traceability
