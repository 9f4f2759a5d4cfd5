/-
# Traceability.Proofs.Patch.Split -- where a hunk ends and its surplus begins

The rows of a hunk are the lines behind its header up to the next header or the next
section, remarks left out (`hunkRows`); with each row goes the line right behind it,
because the old name of a file is told from a removed line by what follows.

The counts of the header cut these rows in two (`HunkRange.Splits`).  The lines of
the hunk are the shortest beginning of the rows that meets both counts, or all rows if
none does.  What is beyond goes into the surplus up to the end of the mail, without the
lines that announce a section.

`readPatch_splits`: this is what reading does to every header that stands below the
opening of a section, in their order and on any text.
-/
import Mathlib.Data.List.Forall2
import Traceability.Proofs.Patch.Concatenation

namespace Traceability

set_option autoImplicit false

/-! ## Rows -/

/-- A line, and the line right behind it if there is one. -/
abbrev Row := Text × Option Text

def withNext : List Text → List Row
  | [] => []
  | line :: rest => (line, rest.head?) :: withNext rest

/-- Does a line open a section or a hunk? -/
def opensPart (line : Text) : Bool := line.startsWith fileMark || line.startsWith hunkMark

/-- The rows of a hunk among the lines behind its header. -/
def hunkRows (behind : List Text) : List Row :=
  ((withNext behind).takeWhile (!opensPart ·.1)).filter (!Hunk.hasMark '\\' ·.1)

/-- The headers of hunks with all lines behind them.  A header counts below the opening of a
section only; `inSection` says whether there has been one. -/
def hunkStarts : (inSection : Bool) → List Text → List (Text × List Text)
  | _, [] => []
  | inSection, line :: rest =>
      if line.startsWith fileMark then hunkStarts true rest
      else if inSection && line.startsWith hunkMark then (line, rest) :: hunkStarts inSection rest
      else hunkStarts inSection rest

/-- Does a row announce a section?  One with the old name of a file does if the section opens right
behind it. -/
def isMetadata (row : Row) : Bool :=
  row.1.startsWithAny announcements ||
    (row.1.startsWith "--- ".toList && row.2.any (·.startsWith fileMark))

/-- The surplus among the rows beyond the counts, blank lines at its end included. -/
def surplusOf (beyond : List Row) : List Text :=
  ((beyond.takeWhile (·.1 != "-- ".toList)).filter (!isMetadata ·)).map Prod.fst

theorem surplusOf_cons (row : Row) (rows : List Row) :
    surplusOf (row :: rows) =
      if row.1 = "-- ".toList then []
      else if isMetadata row then surplusOf rows
      else row.1 :: surplusOf rows := by
  by_cases signature : row.1 = "-- ".toList
  · simp [surplusOf, signature]
  · have goesOn : (row.1 != "-- ".toList) = true := bne_iff_ne.2 signature
    rw [if_neg signature, surplusOf, List.takeWhile_cons, if_pos goesOn]
    cases metadata : isMetadata row <;> simp [surplusOf, metadata]

namespace HunkRange

/-- There are at least as many lines for the old and for the new file as the header says. -/
def MetBy (range : HunkRange) (lines : List Text) : Prop :=
  range.oldCount ≤ lines.countP (!Hunk.hasMark '+' ·) ∧
    range.newCount ≤ lines.countP (!Hunk.hasMark '-' ·)

/-- The rows taken are the shortest beginning of the rows that meets the counts, or all rows if no
beginning does. -/
def Takes (range : HunkRange) (rows taken : List Row) : Prop :=
  (taken <+: rows ∧ range.MetBy (taken.map Prod.fst) ∧
      ∀ other, other <+: rows → range.MetBy (other.map Prod.fst) →
        taken.length ≤ other.length) ∨
    (taken = rows ∧ ∀ other, other <+: rows → ¬range.MetBy (other.map Prod.fst))

/-- The counts of a header split the rows behind it into the lines of the hunk and its surplus. -/
def Splits (range : HunkRange) (rows : List Row) (hunk : Hunk) : Prop :=
  ∃ taken beyond, rows = taken ++ beyond ∧ range.Takes rows taken ∧
    hunk.lines = taken.map Prod.fst ∧ hunk.surplus = Text.dropBlankEnd (surplusOf beyond)

end HunkRange

/-- The hunk has been read from a header and the lines behind it. -/
structure Hunk.IsReadFrom (hunk : Hunk) (start : Text × List Text) : Prop where
  header : hunk.header = start.1
  range : hunk.range = HunkRange.ofHeader? start.1
  splits : ∀ range, hunk.range = some range → range.Splits (hunkRows start.2) hunk

/-! ## Meeting the counts row by row -/

namespace HunkRange

/-- None of the rows can be spared: no beginning of them but all of them meets the counts. -/
def NeedsAll (range : HunkRange) (taken : List Row) : Prop :=
  ∀ shorter, shorter <+: taken → shorter ≠ taken → ¬range.MetBy (shorter.map Prod.fst)

theorem needsAll_nil (range : HunkRange) : range.NeedsAll [] :=
  fun _ isPrefix proper => absurd (List.prefix_nil.1 isPrefix) proper

/-- Counts are met if the other rows meet what the first one leaves of them. -/
theorem metBy_cons (row : Row) (rows : List Row) (old new : Nat) :
    MetBy ⟨0, old, 0, new⟩ ((row :: rows).map Prod.fst) ↔
      MetBy ⟨0, (takeCounts row.1 old new).1, 0, (takeCounts row.1 old new).2⟩
        (rows.map Prod.fst) :=
  (takeCounts_le_iff row.1 (rows.map Prod.fst) old new).symm

theorem needsAll_cons {row : Row} {taken : List Row} {old new : Nat} (counted : 0 < old ∨ 0 < new)
    (needed : NeedsAll ⟨0, (takeCounts row.1 old new).1, 0, (takeCounts row.1 old new).2⟩ taken) :
    NeedsAll ⟨0, old, 0, new⟩ (row :: taken) := by
  intro shorter isPrefix proper
  cases shorter with
  | nil =>
      rintro ⟨oldMet, newMet⟩
      simp only [List.map_nil, List.countP_nil] at oldMet newMet
      omega
  | cons first shorter =>
      obtain ⟨rfl, inside⟩ := List.cons_prefix_cons.1 isPrefix
      rw [metBy_cons]
      exact needed shorter inside fun same => proper (by rw [same])

/-- Rows that meet the counts are the shortest beginning that does if none of them can be spared. -/
theorem takes_of_needsAll {range : HunkRange} {taken beyond : List Row}
    (enough : range.MetBy (taken.map Prod.fst) ∨ beyond = []) (needed : range.NeedsAll taken) :
    range.Takes (taken ++ beyond) taken := by
  by_cases met : range.MetBy (taken.map Prod.fst)
  · refine Or.inl ⟨List.prefix_append taken beyond, met, ?_⟩
    intro other isPrefix otherMet
    apply Nat.le_of_not_lt
    intro shorter
    have inside : other <+: taken :=
      List.prefix_of_prefix_length_le isPrefix (List.prefix_append taken beyond)
        (Nat.le_of_lt shorter)
    refine needed other inside ?_ otherMet
    rintro rfl
    exact Nat.lt_irrefl _ shorter
  · have all : beyond = [] := enough.resolve_left met
    subst all
    rw [List.append_nil]
    refine Or.inr ⟨rfl, fun other isPrefix otherMet => ?_⟩
    by_cases whole : other = taken
    · rw [whole] at otherMet
      exact met otherMet
    · exact needed other isPrefix whole otherMet

end HunkRange

/-! ## The rows of a body -/

/-- The lines behind a header are a body and what comes after it: nothing, the next header, or the
opening of the next section. -/
structure IsBody (sectionFollows : Bool) (body after : List Text) : Prop where
  closed : ∀ line ∈ body, opensPart line = false
  opens : ∀ line ∈ after.head?, opensPart line = true
  follows : after.head?.any (·.startsWith fileMark) = sectionFollows

namespace IsBody

variable {sectionFollows : Bool} {line : Text} {body after : List Text}

theorem tail (isBody : IsBody sectionFollows (line :: body) after) :
    IsBody sectionFollows body after where
  closed := fun other member => isBody.closed other (List.mem_cons_of_mem _ member)
  opens := isBody.opens
  follows := isBody.follows

theorem hunkRows_nil (isBody : IsBody sectionFollows [] after) : hunkRows after = [] := by
  cases after with
  | nil => rfl
  | cons line rest =>
      have opens : opensPart line = true := isBody.opens line rfl
      simp [hunkRows, withNext, opens]

theorem hunkRows_cons (isBody : IsBody sectionFollows (line :: body) after) :
    hunkRows (line :: body ++ after) =
      if Hunk.hasMark '\\' line then hunkRows (body ++ after)
      else (line, (body ++ after).head?) :: hunkRows (body ++ after) := by
  have closed : opensPart line = false := isBody.closed line List.mem_cons_self
  cases remark : Hunk.hasMark '\\' line <;> simp [hunkRows, withNext, closed, remark]

/-- A row announces a section in the sense of the reader. -/
theorem isMetadata_head (isBody : IsBody sectionFollows (line :: body) after) :
    isMetadata (line, (body ++ after).head?) =
      isAnnouncement (sectionFollows && body.isEmpty) line := by
  have next : (body ++ after).head?.any (·.startsWith fileMark) =
      (sectionFollows && body.isEmpty) := by
    cases body with
    | nil =>
        rw [List.isEmpty_nil, Bool.and_true]
        exact isBody.follows
    | cons other body =>
        -- A line of the body opens no section.
        have closed := isBody.closed other (by simp)
        rw [opensPart, Bool.or_eq_false_iff] at closed
        simp [closed.1]
  rw [isMetadata, isAnnouncement, next, Bool.and_comm (Text.startsWith _ _)]

/-- Beyond the counts. -/
theorem readBody_beyond_snd (isBody : IsBody sectionFollows body after) :
    (readBody sectionFollows 0 0 body).2 = surplusOf (hunkRows (body ++ after)) := by
  induction body with
  | nil => rw [List.nil_append, isBody.hunkRows_nil]; rfl
  | cons line body ih =>
      have later := ih isBody.tail
      rw [isBody.hunkRows_cons]
      cases remark : Hunk.hasMark '\\' line with
      | true =>
          rw [readBody_remark remark, later]
          rfl
      | false =>
          rw [readBody_beyond remark, ← isBody.isMetadata_head, if_neg Bool.false_ne_true,
            surplusOf_cons, ← later]
          by_cases signature : line = "-- ".toList
          · have noMetadata : isMetadata (line, (body ++ after).head?) = false := by
              rw [isBody.isMetadata_head, signature]
              cases sectionFollows && body.isEmpty <;> decide
            rw [noMetadata, if_neg Bool.false_ne_true, if_pos signature, if_pos signature]
          · rw [if_neg signature, if_neg signature]
            split <;> rfl

/-- The counts follow the rows: the rows that are read meet them, unless there are too few, and none
of these rows can be spared. -/
theorem readBody_eq (isBody : IsBody sectionFollows body after) (old new : Nat) :
    ∃ taken beyond, hunkRows (body ++ after) = taken ++ beyond ∧
      (HunkRange.MetBy ⟨0, old, 0, new⟩ (taken.map Prod.fst) ∨ beyond = []) ∧
      HunkRange.NeedsAll ⟨0, old, 0, new⟩ taken ∧
      readBody sectionFollows old new body = (taken.map Prod.fst, surplusOf beyond) := by
  -- The counts change from row to row, so the induction is for all of them.
  induction body generalizing old new with
  | nil => exact ⟨[], [], isBody.hunkRows_nil, Or.inr rfl, HunkRange.needsAll_nil _, rfl⟩
  | cons line body ih =>
      rw [isBody.hunkRows_cons]
      cases remark : Hunk.hasMark '\\' line with
      | true =>
          rw [readBody_remark remark]
          exact ih isBody.tail old new
      | false =>
          rw [if_neg Bool.false_ne_true]
          by_cases counted : 0 < old ∨ 0 < new
          · obtain ⟨taken, beyond, rows, enough, needed, read⟩ :=
              ih isBody.tail (takeCounts line old new).1 (takeCounts line old new).2
            refine ⟨(line, (body ++ after).head?) :: taken, beyond, by rw [rows]; rfl,
              enough.imp_left (HunkRange.metBy_cons _ taken old new).2,
              HunkRange.needsAll_cons counted needed, ?_⟩
            rw [readBody_counted remark counted, read]
            rfl
          · obtain ⟨rfl, rfl⟩ : old = 0 ∧ new = 0 := by omega
            refine ⟨[], _, rfl, Or.inl ⟨Nat.zero_le _, Nat.zero_le _⟩,
              HunkRange.needsAll_nil _, ?_⟩
            have beyond := isBody.readBody_beyond_snd
            rw [isBody.hunkRows_cons, remark, if_neg Bool.false_ne_true] at beyond
            exact Prod.ext (readBody_zero_fst sectionFollows (line :: body)) beyond

end IsBody

theorem Hunk.isReadFrom_ofLines {sectionFollows : Bool} {body after : List Text}
    (isBody : IsBody sectionFollows body after) (header : Text) :
    (Hunk.ofLines sectionFollows header body).IsReadFrom (header, body ++ after) := by
  unfold Hunk.ofLines
  cases anchored : HunkRange.ofHeader? header with
  | none => exact ⟨rfl, anchored.symm, nofun⟩
  | some range =>
      refine ⟨rfl, anchored.symm, ?_⟩
      rintro _ ⟨rfl⟩
      obtain ⟨taken, beyond, rows, enough, needed, read⟩ :=
        isBody.readBody_eq range.oldCount range.newCount
      have takes : range.Takes (hunkRows (body ++ after)) taken := by
        rw [rows]
        exact HunkRange.takes_of_needsAll enough needed
      simp only [read]
      exact ⟨taken, beyond, rows, takes, rfl, rfl⟩

/-! ## Headers and sections -/

/-- Only the last hunk of a section sees whether another section follows. -/
theorem readHunks_cons (sectionFollows : Bool) (part : Text × List Text)
    (parts : List (Text × List Text)) :
    readHunks sectionFollows (part :: parts) =
      Hunk.ofLines (sectionFollows && parts.isEmpty) part.1 part.2 ::
        readHunks sectionFollows parts := by
  cases parts with
  | nil => simp [readHunks]
  | cons next parts => simp [readHunks]

/-- Where a section is cut in front of its first header, a body ends. -/
theorem isBody_cutAt (lines : List Text) :
    ∃ after, lines = (cutAt (·.startsWith hunkMark) (cutAt (·.startsWith fileMark) lines).1).1 ++ after ∧
      IsBody (!(cutAt (·.startsWith fileMark) lines).2.isEmpty &&
          (cutAt (·.startsWith hunkMark) (cutAt (·.startsWith fileMark) lines).1).2.isEmpty)
        (cutAt (·.startsWith hunkMark) (cutAt (·.startsWith fileMark) lines).1).1 after := by
  induction lines with
  | nil => exact ⟨[], rfl, List.forall_mem_nil _, by simp, rfl⟩
  | cons line lines ih =>
      obtain ⟨after, parts, isBody⟩ := ih
      cases file : line.startsWith fileMark with
      | true =>
          refine ⟨line :: lines, by simp [cutAt, file], ?_⟩
          simp only [cutAt, file, if_true]
          exact ⟨List.forall_mem_nil _, by simp [opensPart, file], by simp [file]⟩
      | false =>
          cases hunk : line.startsWith hunkMark with
          | true =>
              refine ⟨line :: lines, by simp [cutAt, file, hunk], ?_⟩
              simp only [cutAt, file, hunk, if_true, Bool.false_eq_true, if_false]
              exact ⟨List.forall_mem_nil _, by simp [opensPart, hunk], by simp [file]⟩
          | false =>
              refine ⟨after, ?_, ?_⟩
              · simp only [cutAt, file, hunk, Bool.false_eq_true, if_false, List.cons_append]
                rw [← parts]
              · simp only [cutAt, file, hunk, Bool.false_eq_true, if_false]
                refine ⟨?_, isBody.opens, isBody.follows⟩
                exact List.forall_mem_cons.2 ⟨by simp [opensPart, file, hunk], isBody.closed⟩

/-- The hunks of some lines are read from their headers, in order; in front of the first section they
are not, and within one they are. -/
theorem forall₂_isReadFrom (lines : List Text) :
    List.Forall₂ Hunk.IsReadFrom
        ((readSections (cutAt (·.startsWith fileMark) lines).2).flatMap FilePatch.hunks)
        (hunkStarts false lines) ∧
      List.Forall₂ Hunk.IsReadFrom
        (readHunks (!(cutAt (·.startsWith fileMark) lines).2.isEmpty)
            (cutAt (·.startsWith hunkMark) (cutAt (·.startsWith fileMark) lines).1).2 ++
          (readSections (cutAt (·.startsWith fileMark) lines).2).flatMap FilePatch.hunks)
        (hunkStarts true lines) := by
  induction lines with
  | nil => exact ⟨List.Forall₂.nil, List.Forall₂.nil⟩
  | cons line lines ih =>
      obtain ⟨outside, within⟩ := ih
      cases file : line.startsWith fileMark with
      | true =>
          simp only [cutAt, file, if_true, hunkStarts, readSections, List.flatMap_cons, readHunks,
            List.nil_append]
          exact ⟨within, within⟩
      | false =>
          cases hunk : line.startsWith hunkMark with
          | false =>
              simp only [cutAt, file, hunk, Bool.false_eq_true, if_false, hunkStarts, Bool.and_false]
              exact ⟨outside, within⟩
          | true =>
              simp only [cutAt, file, hunk, Bool.false_eq_true, if_false, if_true, hunkStarts,
                Bool.and_true, readHunks_cons, List.cons_append]
              obtain ⟨after, parts, isBody⟩ := isBody_cutAt lines
              refine ⟨outside, List.Forall₂.cons ?_ within⟩
              have read := Hunk.isReadFrom_ofLines isBody line
              rwa [← parts] at read

/-- **The counts of a header split the rows behind it at the earliest point that uses them up**, for
every header below the opening of a section and on any text.  The hunks of a patch come in the order
of their headers. -/
theorem readPatch_splits (patch : Text) :
    List.Forall₂ Hunk.IsReadFrom ((readPatch patch).flatMap FilePatch.hunks)
      (hunkStarts false patch.lines) :=
  (forall₂_isReadFrom patch.lines).1

end Traceability
