/-
# Traceability.Proofs.Patch.Concatenation -- patches one after the other

A patch that is put behind another is read as if it stood alone, and so is the
one in front of it, as long as the last hunk in front asks for no more lines
(`EndsSettled`) and the one behind opens with nothing but announcements
(`Announces`).  Where the last hunk does ask for lines, it takes the
announcement for one of them, so this is exactly when
(`readPatch_append_iff`).

What carries the proof is `readBody_append`: rows that use up the counts settle
what is read from them, whatever follows, except whether the reading goes on.
-/
import Mathlib.Data.List.TakeWhile
import Mathlib.Logic.Basic
import Traceability.Proofs.Patch.RoundTrip

namespace Traceability

set_option autoImplicit false

/-! ## Patches that can stand side by side -/

/-- There are as many rows for the old and for the new file as the header says, or more. -/
structure HunkRange.UsedUp (range : HunkRange) (rows : List Text) : Prop where
  old : range.oldCount ≤ (bodyOf rows).countP (!Hunk.hasMark '+' ·)
  new : range.newCount ≤ (bodyOf rows).countP (!Hunk.hasMark '-' ·)

theorem HunkRange.usedUp_iff (range : HunkRange) (rows : List Text) :
    range.UsedUp rows ↔ range.oldCount ≤ (bodyOf rows).countP (!Hunk.hasMark '+' ·) ∧
      range.newCount ≤ (bodyOf rows).countP (!Hunk.hasMark '-' ·) :=
  ⟨fun used => ⟨used.old, used.new⟩, fun ⟨old, new⟩ => ⟨old, new⟩⟩

instance (range : HunkRange) (rows : List Text) : Decidable (range.UsedUp rows) :=
  decidable_of_iff' _ (range.usedUp_iff rows)

/-- The header asks for no more lines than the rows: its counts are used up, or it has none. -/
def Settles (header : Text) (rows : List Text) : Prop :=
  ∀ range ∈ HunkRange.ofHeader? header, range.UsedUp rows

instance (header : Text) (rows : List Text) : Decidable (Settles header rows) :=
  inferInstanceAs (Decidable (∀ range ∈ HunkRange.ofHeader? header, range.UsedUp rows))

/-- The last hunk of a section, if there is one, asks for no more lines. -/
def SectionSettled (body : List Text) : Prop :=
  ∀ part ∈ (cutAt (·.startsWith hunkMark) body).2.getLast?, Settles part.1 part.2

instance (body : List Text) : Decidable (SectionSettled body) :=
  inferInstanceAs (Decidable
    (∀ part ∈ (cutAt (·.startsWith hunkMark) body).2.getLast?, Settles part.1 part.2))

/-- The last hunk of the last section, if there is one, asks for no more lines. -/
def EndsSettled (lines : List Text) : Prop :=
  ∀ part ∈ (cutAt (·.startsWith fileMark) lines).2.getLast?, SectionSettled part.2

instance (lines : List Text) : Decidable (EndsSettled lines) :=
  inferInstanceAs (Decidable
    (∀ part ∈ (cutAt (·.startsWith fileMark) lines).2.getLast?, SectionSettled part.2))

/-- The lines of a text that end in a line feed. -/
def Text.endedLines (text : Text) : List Text := text.lines.dropLast

/-- The lines announce a section and do nothing else.  Right before a section the last one may give
its old name, and where no section follows the last one may be the empty piece of the text behind its
last line feed. -/
def IsAnnouncing (sectionFollows : Bool) (lines : List Text) : Prop :=
  ∃ metadata last, lines = metadata ++ last ∧
    (∀ line ∈ metadata, line.startsWithAny announcements = true) ∧
    (last = [] ∨ sectionFollows = true ∧ (∃ name, last = ["--- ".toList ++ name]) ∨
      sectionFollows = false ∧ last = [[]])

/-- The patch begins with the announcement of its first section. -/
structure Announces (patch : Text) : Prop where
  opens : patch.startsWith "diff --git ".toList = true
  announcing : IsAnnouncing (!(cutAt (·.startsWith fileMark) patch.lines).2.isEmpty)
    (cutAt (·.startsWith fileMark) patch.lines).1

/-! ## Cutting -/

/-- Where lines are cut in front of one of them, nothing reaches across. -/
theorem cutAt_append_cons (opens : Text → Bool) (before : List Text) {line : Text}
    (here : opens line = true) (rest : List Text) :
    cutAt opens (before ++ line :: rest) =
      ((cutAt opens before).1, (cutAt opens before).2 ++
        (line, (cutAt opens rest).1) :: (cutAt opens rest).2) := by
  induction before with
  | nil => simp [cutAt, here]
  | cons first before ih => by_cases opening : opens first = true <;> simp [cutAt, ih, opening]

/-- Lines are not cut at all, or have a last line in front of which they are cut. -/
theorem closed_or_last_opening (opens : Text → Bool) (lines : List Text) :
    (∀ line ∈ lines, opens line = false) ∨
      ∃ before line rest, lines = before ++ line :: rest ∧ opens line = true ∧
        ∀ other ∈ rest, opens other = false := by
  induction lines with
  | nil => exact Or.inl nofun
  | cons first lines ih =>
      rcases ih with closed | ⟨before, line, rest, rfl, here, closed⟩
      · cases here : opens first with
        | true => exact Or.inr ⟨[], first, lines, rfl, here, closed⟩
        | false => exact Or.inl (List.forall_mem_cons.2 ⟨here, closed⟩)
      · exact Or.inr ⟨first :: before, line, rest, rfl, here, closed⟩

/-! ## Bodies -/

/-- A row beyond the counts. -/
theorem readBody_beyond {sectionFollows : Bool} {row : Text} {rest : List Text}
    (noRemark : Hunk.hasMark '\\' row = false) :
    readBody sectionFollows 0 0 (row :: rest) =
      if isAnnouncement (sectionFollows && rest.isEmpty) row = true then
        readBody sectionFollows 0 0 rest
      else if row = "-- ".toList then ([], [])
      else ([], row :: (readBody sectionFollows 0 0 rest).2) := by
  have within := readBody_zero_fst sectionFollows rest
  rw [readBody, if_neg (by simp [noRemark]), if_neg (by simp)]
  simp only [within]

/-- A row takes from the counts what it is counted for. -/
theorem takeCounts_le_iff (row : Text) (rest : List Text) (old new : Nat) :
    ((takeCounts row old new).1 ≤ rest.countP (!Hunk.hasMark '+' ·) ∧
        (takeCounts row old new).2 ≤ rest.countP (!Hunk.hasMark '-' ·)) ↔
      old ≤ (row :: rest).countP (!Hunk.hasMark '+' ·) ∧
        new ≤ (row :: rest).countP (!Hunk.hasMark '-' ·) := by
  rw [List.countP_cons, List.countP_cons]
  unfold takeCounts
  cases minus : Hunk.hasMark '-' row with
  | true =>
      have noPlus := Hunk.hasMark_unique '+' (by decide) minus
      simp only [noPlus, if_true, Bool.not_true, Bool.not_false, Bool.false_eq_true, if_false]
      omega
  | false =>
      cases plus : Hunk.hasMark '+' row with
      | true =>
          simp only [if_true, Bool.not_true, Bool.not_false, Bool.false_eq_true, if_false]
          omega
      | false =>
          simp only [if_true, Bool.not_false, Bool.false_eq_true, if_false]
          omega

/-- Beyond the counts stands the line that ends a mail. -/
def MailEnds (old new : Nat) (rows : List Text) : Prop :=
  ∃ within beyond, rows = within ++ "-- ".toList :: beyond ∧
    old ≤ (bodyOf within).countP (!Hunk.hasMark '+' ·) ∧
    new ≤ (bodyOf within).countP (!Hunk.hasMark '-' ·)

theorem mailEnds_iff (old new : Nat) (rows : List Text) :
    MailEnds old new rows ↔ ∃ place < rows.length, rows[place]? = some "-- ".toList ∧
      old ≤ (bodyOf (rows.take place)).countP (!Hunk.hasMark '+' ·) ∧
      new ≤ (bodyOf (rows.take place)).countP (!Hunk.hasMark '-' ·) := by
  constructor
  · rintro ⟨within, beyond, rfl, used⟩
    refine ⟨within.length, by simp, by simp, ?_⟩
    rwa [List.take_left]
  · rintro ⟨place, inside, signature, used⟩
    rw [List.getElem?_eq_getElem inside, Option.some_inj] at signature
    refine ⟨rows.take place, rows.drop (place + 1), ?_, used⟩
    rw [← signature, ← List.drop_eq_getElem_cons inside, List.take_append_drop]

instance (old new : Nat) (rows : List Text) : Decidable (MailEnds old new rows) :=
  decidable_of_iff' _ (mailEnds_iff old new rows)

theorem mailEnds_zero_iff {rows : List Text} : MailEnds 0 0 rows ↔ "-- ".toList ∈ rows := by
  constructor
  · rintro ⟨within, beyond, rfl, -, -⟩
    exact List.mem_append_right within List.mem_cons_self
  · intro member
    obtain ⟨within, beyond, rfl⟩ := List.append_of_mem member
    exact ⟨within, beyond, rfl, Nat.zero_le _, Nat.zero_le _⟩

theorem mailEnds_cons_remark {old new : Nat} {row : Text} {rows : List Text}
    (remark : Hunk.hasMark '\\' row = true) : MailEnds old new (row :: rows) ↔ MailEnds old new rows := by
  constructor
  · rintro ⟨within, beyond, cut, oldUsed, newUsed⟩
    rcases List.cons_eq_append_iff.1 cut with ⟨rfl, first⟩ | ⟨within, rfl, later⟩
    · rw [← (List.cons.inj first).1] at remark
      exact absurd remark (by decide)
    · rw [bodyOf_cons_remark remark] at oldUsed newUsed
      exact ⟨within, beyond, later, oldUsed, newUsed⟩
  · rintro ⟨within, beyond, rfl, oldUsed, newUsed⟩
    refine ⟨row :: within, beyond, rfl, ?_⟩
    rw [bodyOf_cons_remark remark]
    exact ⟨oldUsed, newUsed⟩

theorem mailEnds_cons_counted {old new : Nat} {row : Text} {rows : List Text}
    (noRemark : Hunk.hasMark '\\' row = false) (counted : 0 < old ∨ 0 < new) :
    MailEnds old new (row :: rows) ↔
      MailEnds (takeCounts row old new).1 (takeCounts row old new).2 rows := by
  constructor
  · rintro ⟨within, beyond, cut, oldUsed, newUsed⟩
    rcases List.cons_eq_append_iff.1 cut with ⟨rfl, -⟩ | ⟨within, rfl, later⟩
    · simp only [bodyOf, List.filter_nil, List.countP_nil] at oldUsed newUsed
      omega
    · rw [bodyOf_cons_row noRemark] at oldUsed newUsed
      exact ⟨within, beyond, later,
        (takeCounts_le_iff row (bodyOf within) old new).2 ⟨oldUsed, newUsed⟩⟩
  · rintro ⟨within, beyond, rfl, used⟩
    refine ⟨row :: within, beyond, rfl, ?_⟩
    rw [bodyOf_cons_row noRemark]
    exact (takeCounts_le_iff row (bodyOf within) old new).1 used

/-- **Rows that use up the counts settle what is read from them.**  What follows is read as it would
be beyond the counts, unless a mail ends among the rows. -/
theorem readBody_append {old new : Nat} {rows : List Text}
    (oldUsed : old ≤ (bodyOf rows).countP (!Hunk.hasMark '+' ·))
    (newUsed : new ≤ (bodyOf rows).countP (!Hunk.hasMark '-' ·)) :
    ∃ stopped : Bool, (stopped = true ↔ MailEnds old new rows) ∧
      ∀ (sectionFollows : Bool) (tail : List Text), (sectionFollows = true → tail ≠ []) →
        readBody sectionFollows old new (rows ++ tail) =
          ((readBody false old new rows).1, (readBody false old new rows).2 ++
            if stopped then [] else (readBody sectionFollows 0 0 tail).2) := by
  induction rows generalizing old new with
  | nil =>
      simp only [bodyOf, List.filter_nil, List.countP_nil, Nat.le_zero_eq] at oldUsed newUsed
      subst oldUsed newUsed
      refine ⟨false, ?_, fun sectionFollows tail _ => ?_⟩
      · rw [mailEnds_zero_iff]
        exact iff_of_false Bool.false_ne_true List.not_mem_nil
      · exact Prod.ext (readBody_zero_fst sectionFollows tail) rfl
  | cons row rows ih =>
      cases remark : Hunk.hasMark '\\' row with
      | true =>
          rw [bodyOf_cons_remark remark] at oldUsed newUsed
          obtain ⟨stopped, stops, reads⟩ := ih oldUsed newUsed
          refine ⟨stopped, by rw [stops, mailEnds_cons_remark remark], ?_⟩
          intro sectionFollows tail nonempty
          rw [List.cons_append, readBody_remark remark, readBody_remark remark]
          exact reads sectionFollows tail nonempty
      | false =>
          rw [bodyOf_cons_row remark] at oldUsed newUsed
          by_cases counted : 0 < old ∨ 0 < new
          · obtain ⟨oldLeft, newLeft⟩ :=
              (takeCounts_le_iff row (bodyOf rows) old new).2 ⟨oldUsed, newUsed⟩
            obtain ⟨stopped, stops, reads⟩ := ih oldLeft newLeft
            refine ⟨stopped, by rw [stops, mailEnds_cons_counted remark counted], ?_⟩
            intro sectionFollows tail nonempty
            rw [List.cons_append, readBody_counted remark counted, readBody_counted remark counted,
              reads sectionFollows tail nonempty]
          · obtain ⟨rfl, rfl⟩ : old = 0 ∧ new = 0 := by omega
            obtain ⟨stopped, stops, reads⟩ := ih (Nat.zero_le _) (Nat.zero_le _)
            -- A row is the last line only where no section follows, so it is never an old name.
            have notLast : ∀ (sectionFollows : Bool) (tail : List Text),
                (sectionFollows = true → tail ≠ []) →
                (sectionFollows && (rows ++ tail).isEmpty) = false := by
              intro sectionFollows tail nonempty
              cases sectionFollows <;> simp_all
            refine ⟨stopped || decide (row = "-- ".toList), ?_, ?_⟩
            · rw [Bool.or_eq_true, stops, decide_eq_true_eq, mailEnds_zero_iff, mailEnds_zero_iff,
                List.mem_cons, or_comm, eq_comm]
            intro sectionFollows tail nonempty
            rw [List.cons_append, readBody_beyond remark, readBody_beyond remark,
              notLast sectionFollows tail nonempty, Bool.false_and,
              reads sectionFollows tail nonempty, readBody_zero_fst]
            by_cases signature : row = "-- ".toList
            · have announces : isAnnouncement false "-- ".toList = false := by decide
              simp only [signature, announces, if_true, Bool.false_eq_true, if_false, decide_true,
                Bool.or_true, List.append_nil]
            · simp only [signature, if_false, decide_false, Bool.or_false]
              split
              · rw [readBody_zero_fst]
              · rfl

/-- Rows that do not use up the counts are read to the last, and so is the line behind them. -/
theorem readBody_short {sectionFollows : Bool} {old new : Nat} {rows tail : List Text} {line : Text}
    (noRemark : Hunk.hasMark '\\' line = false)
    (short : ¬(old ≤ (bodyOf rows).countP (!Hunk.hasMark '+' ·) ∧
      new ≤ (bodyOf rows).countP (!Hunk.hasMark '-' ·))) :
    ∃ more, (readBody sectionFollows old new (rows ++ line :: tail)).1 =
      bodyOf rows ++ line :: more := by
  induction rows generalizing old new with
  | nil =>
      have counted : 0 < old ∨ 0 < new := by
        simp only [bodyOf, List.filter_nil, List.countP_nil] at short
        omega
      rw [List.nil_append, readBody_counted noRemark counted]
      exact ⟨_, rfl⟩
  | cons row rows ih =>
      cases remark : Hunk.hasMark '\\' row with
      | true =>
          rw [bodyOf_cons_remark remark] at short ⊢
          rw [List.cons_append, readBody_remark remark]
          exact ih short
      | false =>
          rw [bodyOf_cons_row remark] at short ⊢
          have counted : 0 < old ∨ 0 < new := by omega
          obtain ⟨more, read⟩ := ih fun used =>
            short ((takeCounts_le_iff row (bodyOf rows) old new).1 used)
          rw [List.cons_append, readBody_counted remark counted, read]
          exact ⟨more, rfl⟩

/-! ## Hunks -/

/-- Lines behind a section that add nothing to its last hunk, once its counts are used up. -/
structure AddsNothing (sectionFollows : Bool) (tail : List Text) : Prop where
  noHunk : ∀ line ∈ tail, line.startsWith hunkMark = false
  blank : ∀ line ∈ (readBody sectionFollows 0 0 tail).2, line = []
  nonempty : sectionFollows = true → tail ≠ []

theorem dropBlankEnd_append_blank (lines : List Text) {blanks : List Text}
    (blank : ∀ line ∈ blanks, line = []) :
    Text.dropBlankEnd (lines ++ blanks) = Text.dropBlankEnd lines := by
  have dropped : blanks.reverse.dropWhile (·.isEmpty) = [] := by
    rw [List.dropWhile_eq_nil_iff]
    intro line member
    rw [blank line (List.mem_reverse.1 member)]
    rfl
  rw [Text.dropBlankEnd, List.reverse_append, List.dropWhile_append, dropped]
  rfl

/-- A hunk that asks for no more lines stays what it is. -/
theorem Hunk.ofLines_append {header : Text} {rows : List Text} (settled : Settles header rows)
    {sectionFollows : Bool} {tail : List Text} (adds : AddsNothing sectionFollows tail) :
    Hunk.ofLines sectionFollows header (rows ++ tail) = Hunk.ofLines false header rows := by
  have closed : ∀ (surplus : List Text) (stopped : Bool),
      Text.dropBlankEnd (surplus ++
        if stopped then [] else (readBody sectionFollows 0 0 tail).2) =
      Text.dropBlankEnd surplus := by
    intro surplus stopped
    apply dropBlankEnd_append_blank
    cases stopped
    · exact adds.blank
    · exact nofun
  unfold Hunk.ofLines
  cases anchored : HunkRange.ofHeader? header with
  | some range =>
      have used := settled range anchored
      obtain ⟨stopped, -, reads⟩ := readBody_append used.old used.new
      simp only [reads sectionFollows tail adds.nonempty, closed]
  | none =>
      have oldUsed : 0 ≤ (bodyOf rows).countP (!Hunk.hasMark '+' ·) := Nat.zero_le _
      obtain ⟨stopped, -, reads⟩ := readBody_append oldUsed (Nat.zero_le _)
      simp only [reads sectionFollows tail adds.nonempty, closed]

/-- A hunk that asks for more lines takes the one that follows. -/
theorem Hunk.ofLines_short {header line : Text} {rows : List Text}
    (unsettled : ¬Settles header rows) (noRemark : Hunk.hasMark '\\' line = false)
    (sectionFollows : Bool) (tail : List Text) :
    ∃ more, (Hunk.ofLines sectionFollows header (rows ++ line :: tail)).lines =
      bodyOf rows ++ line :: more := by
  simp only [Settles, not_forall] at unsettled
  obtain ⟨range, anchored, short⟩ := unsettled
  rw [HunkRange.usedUp_iff] at short
  obtain ⟨more, read⟩ := readBody_short noRemark short
  refine ⟨more, ?_⟩
  rw [Hunk.ofLines, Option.mem_def.1 anchored]
  exact read

/-- Only the last hunk sees what follows the section. -/
theorem readHunks_append (sectionFollows : Bool) (parts : List (Text × List Text))
    (last : Text × List Text) :
    readHunks sectionFollows (parts ++ [last]) =
      parts.map (fun part => Hunk.ofLines false part.1 part.2) ++
        [Hunk.ofLines sectionFollows last.1 last.2] := by
  induction parts with
  | nil => rfl
  | cons part parts ih =>
      obtain ⟨next, others, more⟩ := List.exists_cons_of_ne_nil
        (List.append_ne_nil_of_right_ne_nil parts (List.cons_ne_nil last []))
      rw [List.cons_append, List.map_cons, List.cons_append, ← ih, more]
      rfl

/-! ## Sections -/

/-- The section with an opening line and the lines below it. -/
def FilePatch.ofLines (sectionFollows : Bool) (part : Text × List Text) : FilePatch :=
  ⟨String.ofList (Text.trim (part.1.drop fileMark.length)),
    readHunks sectionFollows (cutAt (·.startsWith hunkMark) part.2).2⟩

/-- Only the last section sees that no other follows. -/
theorem readSections_append (parts : List (Text × List Text)) {later : List (Text × List Text)}
    (nonempty : later ≠ []) :
    readSections (parts ++ later) =
      parts.map (FilePatch.ofLines true) ++ readSections later := by
  induction parts with
  | nil => rfl
  | cons part parts ih =>
      have follows : (parts ++ later).isEmpty = false := by simp [nonempty]
      rw [List.cons_append, List.map_cons, List.cons_append, ← ih, readSections, follows]
      rfl

/-- The hunks of a section whose lines are cut for the last time in front of a header. -/
theorem readHunks_of_last (before : List Text) {rows : List Text} {header : Text}
    (opens : header.startsWith hunkMark = true)
    (closed : ∀ row ∈ rows, row.startsWith hunkMark = false) (sectionFollows : Bool)
    {tail : List Text} (noHunk : ∀ line ∈ tail, line.startsWith hunkMark = false) :
    readHunks sectionFollows
        (cutAt (·.startsWith hunkMark) ((before ++ header :: rows) ++ tail)).2 =
      (cutAt (·.startsWith hunkMark) before).2.map (fun part => Hunk.ofLines false part.1 part.2) ++
        [Hunk.ofLines sectionFollows header (rows ++ tail)] := by
  rw [List.append_assoc, List.cons_append, cutAt_append_cons (·.startsWith hunkMark) before opens,
    cutAt_append closed, cutAt_of_closed noHunk, readHunks_append]

theorem sectionSettled_iff {before rows : List Text} {header : Text}
    (opens : header.startsWith hunkMark = true)
    (closed : ∀ row ∈ rows, row.startsWith hunkMark = false) :
    SectionSettled (before ++ header :: rows) ↔ Settles header rows := by
  rw [SectionSettled, cutAt_append_cons (·.startsWith hunkMark) before opens,
    cutAt_of_closed closed, List.getLast?_concat]
  simp only [Option.mem_some_iff, forall_eq']

/-- A section whose last hunk asks for no more lines stays what it is. -/
theorem FilePatch.ofLines_append {opening : Text} {body : List Text}
    (settled : SectionSettled body) {sectionFollows : Bool} {tail : List Text}
    (adds : AddsNothing sectionFollows tail) :
    FilePatch.ofLines sectionFollows (opening, body ++ tail) =
      FilePatch.ofLines false (opening, body) := by
  apply congrArg (FilePatch.mk _)
  rcases closed_or_last_opening (·.startsWith hunkMark) body with
    closed | ⟨before, header, rows, rfl, opens, closed⟩
  · rw [cutAt_append closed, cutAt_of_closed adds.noHunk, cutAt_of_closed closed]
    rfl
  · have nothing : ∀ line ∈ ([] : List Text), line.startsWith hunkMark = false := nofun
    have alone := readHunks_of_last before opens closed false nothing
    rw [List.append_nil, List.append_nil] at alone
    rw [readHunks_of_last before opens closed sectionFollows adds.noHunk, alone,
      Hunk.ofLines_append ((sectionSettled_iff opens closed).1 settled) adds]

/-- A section whose last hunk asks for more lines takes the one that follows. -/
theorem FilePatch.ofLines_ne {opening : Text} {body : List Text} (unsettled : ¬SectionSettled body)
    {line other : Text} (ne : line ≠ other) (noRemark : Hunk.hasMark '\\' line = false)
    (otherNoRemark : Hunk.hasMark '\\' other = false) {tail otherTail : List Text}
    (noHunk : ∀ below ∈ line :: tail, below.startsWith hunkMark = false)
    (otherNoHunk : ∀ below ∈ other :: otherTail, below.startsWith hunkMark = false)
    (sectionFollows otherFollows : Bool) :
    FilePatch.ofLines sectionFollows (opening, body ++ line :: tail) ≠
      FilePatch.ofLines otherFollows (opening, body ++ other :: otherTail) := by
  rcases closed_or_last_opening (·.startsWith hunkMark) body with
    closed | ⟨before, header, rows, rfl, opens, closed⟩
  · refine absurd ?_ unsettled
    intro part member
    rw [cutAt_of_closed closed] at member
    exact absurd member (Option.not_mem_none part)
  · rw [sectionSettled_iff opens closed] at unsettled
    intro same
    have hunks := congrArg FilePatch.hunks same
    simp only [FilePatch.ofLines, readHunks_of_last before opens closed _ noHunk,
      readHunks_of_last before opens closed _ otherNoHunk] at hunks
    have last := (List.cons.inj (List.append_cancel_left hunks)).1
    obtain ⟨more, taken⟩ := Hunk.ofLines_short unsettled noRemark sectionFollows tail
    obtain ⟨otherMore, otherTaken⟩ :=
      Hunk.ofLines_short unsettled otherNoRemark otherFollows otherTail
    rw [last, otherTaken] at taken
    exact ne (List.cons.inj (List.append_cancel_left taken)).1.symm

/-! ## Texts -/

theorem Text.endedLines_append_newline (front : Text) :
    Text.endedLines (front ++ ['\n']) = front.lines := by
  rw [Text.endedLines, Text.lines_append_newline]
  exact List.dropLast_concat

theorem Text.eq_append_newline {text : Text} (ended : text.endsWith ['\n'] = true) :
    ∃ front, text = front ++ ['\n'] := by
  obtain ⟨front, rfl⟩ := List.isSuffixOf_iff_suffix.1 ended
  exact ⟨front, rfl⟩

theorem addsNothing_of_isAnnouncing {sectionFollows : Bool} {lines : List Text}
    (announcing : IsAnnouncing sectionFollows lines) (nonempty : lines ≠ []) :
    AddsNothing sectionFollows lines := by
  obtain ⟨metadata, last, rfl, announced, end_⟩ := announcing
  have metadataNoHunk : ∀ line ∈ metadata, line.startsWith hunkMark = false := by
    intro line member
    apply not_startsWith_of_head?
    exact head?_ne_of_announces (announced line member) (by decide)
  have lastNoHunk : ∀ line ∈ last, line.startsWith hunkMark = false := by
    rcases end_ with rfl | ⟨-, name, rfl⟩ | ⟨-, rfl⟩
    · exact nofun
    · intro line member
      rw [List.mem_singleton.1 member]
      rfl
    · intro line member
      rw [List.mem_singleton.1 member]
      rfl
  refine ⟨List.forall_mem_append.2 ⟨metadataNoHunk, lastNoHunk⟩, ?_, fun _ => nonempty⟩
  rw [readBody_announced_append announced]
  rcases end_ with rfl | ⟨rfl, name, rfl⟩ | ⟨rfl, rfl⟩
  · exact nofun
  · rw [readBody_oldName (startsWith_append "--- ".toList name)]
    exact nofun
  · intro line member
    exact List.mem_singleton.1 member

/-- The empty piece behind the last line feed. -/
theorem addsNothing_empty : AddsNothing false [[]] := by
  apply addsNothing_of_isAnnouncing
  · exact ⟨[], [[]], rfl, nofun, Or.inr (Or.inr ⟨rfl, rfl⟩)⟩
  · exact List.cons_ne_nil [] []

/-- What stands in front of the first section begins with the line that announces it. -/
theorem Announces.preamble {patch : Text} (announces : Announces patch) :
    ∃ line rest, (cutAt (·.startsWith fileMark) patch.lines).1 = line :: rest ∧
      line.head? = some 'd' := by
  obtain ⟨rest, rfl⟩ := List.isPrefixOf_iff_prefix.1 announces.opens
  obtain ⟨piece, others, cut⟩ := List.exists_cons_of_ne_nil
    (Text.split_ne_nil '\n' ("iff --git ".toList ++ rest))
  have lines : Text.lines ("diff --git ".toList ++ rest) = ('d' :: piece) :: others :=
    Text.split_cons_of_ne (by decide) cut
  rw [lines, cutAt]
  exact ⟨'d' :: piece, _, rfl, rfl⟩

/-- The sections of lines that are cut for the last time in front of an opening line. -/
theorem readSections_of_last {before body : List Text} {opening : Text}
    (opens : opening.startsWith fileMark = true)
    (closed : ∀ line ∈ body, line.startsWith fileMark = false) (tail : List Text) :
    readSections (cutAt (·.startsWith fileMark) ((before ++ opening :: body) ++ tail)).2 =
      (cutAt (·.startsWith fileMark) before).2.map (FilePatch.ofLines true) ++
        FilePatch.ofLines (!(cutAt (·.startsWith fileMark) tail).2.isEmpty)
            (opening, body ++ (cutAt (·.startsWith fileMark) tail).1) ::
          readSections (cutAt (·.startsWith fileMark) tail).2 := by
  rw [List.append_assoc, List.cons_append, cutAt_append_cons (·.startsWith fileMark) before opens,
    cutAt_append closed, readSections_append _ (List.cons_ne_nil _ _)]
  rfl

/-- **Sections do not influence each other.**  Two patches one after the other are read as each
alone exactly when the last hunk of the first one asks for no more lines. -/
theorem readPatch_append_iff {first second : Text}
    (ended : first = [] ∨ first.endsWith ['\n'] = true) (announces : Announces second) :
    readPatch (first ++ second) = readPatch first ++ readPatch second ↔
      EndsSettled first.endedLines := by
  rcases ended with rfl | ended
  · exact iff_of_true rfl (by decide)
  obtain ⟨front, rfl⟩ := Text.eq_append_newline ended
  have whole : Text.lines (front ++ ['\n'] ++ second) = front.lines ++ second.lines := by
    rw [List.append_assoc]
    exact Text.lines_append_newline front second
  have alone : Text.lines (front ++ ['\n']) = front.lines ++ [[]] :=
    Text.lines_append_newline front []
  rw [Text.endedLines_append_newline, readPatch, readPatch, readPatch, whole, alone]
  rcases closed_or_last_opening (·.startsWith fileMark) front.lines with
    closed | ⟨before, opening, body, lines, opens, closed⟩
  · -- Nothing of the first patch is read.
    rw [cutAt_append closed, cutAt_append closed]
    refine iff_of_true rfl fun part member => ?_
    rw [cutAt_of_closed closed] at member
    exact absurd member (Option.not_mem_none part)
  · have settled : EndsSettled front.lines ↔ SectionSettled body := by
      rw [lines, EndsSettled, cutAt_append_cons (·.startsWith fileMark) before opens,
        cutAt_of_closed closed, List.getLast?_concat]
      simp only [Option.mem_some_iff, forall_eq']
    rw [settled, lines, readSections_of_last opens closed, readSections_of_last opens closed]
    obtain ⟨line, rest, preamble, first⟩ := announces.preamble
    have adds := addsNothing_of_isAnnouncing announces.announcing (by rw [preamble]; simp)
    have empty : cutAt (·.startsWith fileMark) [[]] = ([[]], []) := rfl
    simp only [empty, List.isEmpty_nil, Bool.not_true, readSections, List.append_assoc,
      List.singleton_append, List.append_cancel_left_eq, List.cons.injEq, and_true]
    constructor
    · intro same
      by_contra unsettled
      rw [preamble] at same adds
      have ne : line ≠ [] := by
        rintro rfl
        cases first
      have noRemark : Hunk.hasMark '\\' line = false := by simp [Hunk.hasMark, first]
      exact FilePatch.ofLines_ne unsettled ne noRemark rfl adds.noHunk
        addsNothing_empty.noHunk _ _ same
    · intro settled
      rw [FilePatch.ofLines_append settled adds,
        FilePatch.ofLines_append settled addsNothing_empty]

end Traceability
