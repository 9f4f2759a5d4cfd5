/-
# Traceability.Patch.Reader -- patches from text

A line that begins with `+++ b/` opens the section of a file and a line that
begins with `@@` a hunk; these two marks count wherever they stand.  What comes
before the first section, or before the first hunk of a section, is skipped.

The body of a hunk is read by `readBody`.  Lines that begin with a backslash say
something about the line before them and are skipped.  As long as the counts of
the header ask for lines, every line is taken; after that, the lines with which
the next section is announced are skipped, and the line that closes a mailed
patch ends the body.
-/
import Traceability.Patch.Basic

namespace Traceability

set_option autoImplicit false

/-! ## The header of a hunk -/

/-- The number at the beginning of a text, and what remains. -/
def readNumber (text : Text) : Option (Nat × Text) :=
  match text.takeWhile Text.isDecimal with
  | [] => none
  | digits => some (Text.decimalNumber digits, text.dropWhile Text.isDecimal)

/-- A line number and, after a comma, a number of lines; without the comma it is one line. -/
def readRange (text : Text) : Option (Nat × Nat × Text) := do
  let (first, rest) ← readNumber text
  match rest with
  | ',' :: after =>
      let (count, rest) ← readNumber after
      some (first, count, rest)
  | _ => some (first, 1, rest)

/-- The text without the blanks at its beginning, of which there must be one. -/
def skipGap (text : Text) : Option Text :=
  if (text.head?.map Text.isBlank).getD false then some text.trimLeft else none

def skipMark (mark : Text) (text : Text) : Option Text :=
  if mark.isPrefixOf text then some (text.drop mark.length) else none

def HunkRange.ofHeader? (header : Text) : Option HunkRange := do
  let rest ← skipMark ['@', '@'] header
  let rest ← skipMark ['-'] (Text.trimLeft (rest.dropWhile (· == '@')))
  let (oldStart, oldCount, rest) ← readRange rest
  let rest ← skipMark ['+'] (← skipGap rest)
  let (newStart, newCount, rest) ← readRange rest
  let _ ← skipMark ['@', '@'] rest.trimLeft
  some ⟨oldStart, oldCount, newStart, newCount⟩

/-! ## The body of a hunk -/

def fileMark : Text := "+++ b/".toList

def hunkMark : Text := "@@".toList

/-- Beginnings of the lines that announce a section. -/
def announcements : List Text :=
  ["diff --git ", "index ", "new file mode", "deleted file mode", "similarity index", "rename from",
    "rename to"].map String.toList

/-- Does a line announce a section?  A line with the old name does when the section opens right
after it. -/
def isAnnouncement (sectionNext : Bool) (line : Text) : Bool :=
  line.startsWithAny announcements || (sectionNext && line.startsWith "--- ".toList)

/-- What a line of a body takes from the two counts. -/
def takeCounts (line : Text) (old new : Nat) : Nat × Nat :=
  if Hunk.hasMark '-' line then (old - 1, new)
  else if Hunk.hasMark '+' line then (old, new - 1)
  else (old - 1, new - 1)

/-- The lines of a body within the counts, and those beyond.  `sectionFollows` says whether the next
section opens right after the last line. -/
def readBody (sectionFollows : Bool) : (old new : Nat) → List Text → List Text × List Text
  | _, _, [] => ([], [])
  | old, new, line :: rest =>
      if Hunk.hasMark '\\' line then readBody sectionFollows old new rest
      else if 0 < old || 0 < new then
        let (old, new) := takeCounts line old new
        let (lines, surplus) := readBody sectionFollows old new rest
        (line :: lines, surplus)
      else if isAnnouncement (sectionFollows && rest.isEmpty) line then
        readBody sectionFollows 0 0 rest
      else if line = "-- ".toList then ([], [])
      else
        let (lines, surplus) := readBody sectionFollows 0 0 rest
        (lines, line :: surplus)

/-- The hunk with a header and a body.  Without ranges in the header all lines belong to it, and in
either case the empty lines at the end of what no count asks for are dropped. -/
def Hunk.ofLines (sectionFollows : Bool) (header : Text) (body : List Text) : Hunk :=
  match HunkRange.ofHeader? header with
  | some range =>
      let (lines, surplus) := readBody sectionFollows range.oldCount range.newCount body
      ⟨header, some range, lines, Text.dropBlankEnd surplus⟩
  | none => ⟨header, none, Text.dropBlankEnd (readBody sectionFollows 0 0 body).2, []⟩

/-! ## Sections -/

/-- Lines cut before every line that satisfies `opens`: what comes before the first, and then each
such line with what follows it. -/
def cutAt (opens : Text → Bool) : List Text → List Text × List (Text × List Text)
  | [] => ([], [])
  | line :: rest =>
      let (before, parts) := cutAt opens rest
      if opens line then ([], (line, before) :: parts) else (line :: before, parts)

def readHunks (sectionFollows : Bool) : List (Text × List Text) → List Hunk
  | [] => []
  | [(header, body)] => [Hunk.ofLines sectionFollows header body]
  | (header, body) :: rest => Hunk.ofLines false header body :: readHunks sectionFollows rest

def readSections : List (Text × List Text) → List FilePatch
  | [] => []
  | (opening, body) :: rest =>
      let path := Text.trim (opening.drop fileMark.length)
      let hunks := (cutAt (·.startsWith hunkMark) body).2
      ⟨String.ofList path, readHunks (!rest.isEmpty) hunks⟩ :: readSections rest

/-- The patch that a text describes. -/
def readPatch (text : Text) : List FilePatch :=
  readSections (cutAt (·.startsWith fileMark) text.lines).2

end Traceability
