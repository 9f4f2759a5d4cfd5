/-
# Traceability.Patch.Basic -- patches

A patch is a list of sections, one per file, and a section a list of hunks.  A
hunk with line ranges in its header says where it belongs; the lines beyond the
counts of those ranges are kept apart as its surplus.
-/
import Traceability.Text.CharClass

namespace Traceability

set_option autoImplicit false

/-- The line ranges of a hunk: first line and number of lines before and after. -/
structure HunkRange where
  oldStart : Nat
  oldCount : Nat
  newStart : Nat
  newCount : Nat
deriving DecidableEq, Repr

/-- One block of changes.  Lines keep their first character, which says what happens to them. -/
structure Hunk where
  header : Text
  range : Option HunkRange
  lines : List Text
  surplus : List Text
deriving DecidableEq, Repr

namespace Hunk

/-- Does the hunk say where it belongs? -/
def isAnchored (hunk : Hunk) : Bool := hunk.range.isSome

def body (hunk : Hunk) : List Text := hunk.lines ++ hunk.surplus

def hasMark (mark : Char) (line : Text) : Bool := line.head? == some mark

/-- The marks of a line of a body exclude each other. -/
theorem hasMark_unique {mark : Char} {line : Text} (other : Char) (ne : mark ≠ other)
    (marked : hasMark mark line = true) : hasMark other line = false := by
  simp only [hasMark, beq_iff_eq] at marked
  simp only [hasMark, marked, beq_eq_false_iff_ne, ne_eq, Option.some.injEq]
  exact ne

def removedLines (hunk : Hunk) : List Text :=
  (hunk.body.filter (hasMark '-')).map (·.drop 1)

def addedLines (hunk : Hunk) : List Text :=
  (hunk.body.filter (hasMark '+')).map (·.drop 1)

/-- Are there lines beyond the counts of the header that change or describe the file? -/
def hasSurplusChanges (hunk : Hunk) : Bool :=
  hunk.surplus.any fun line => hasMark '+' line || hasMark '-' line || hasMark ' ' line

/-- What the file must contain: the lines kept and taken away, in order. -/
def oldSide (hunk : Hunk) : List Text :=
  (hunk.lines.filter (!hasMark '+' ·)).map (·.drop 1)

/-- What takes its place: the lines kept and put in, in order. -/
def newSide (hunk : Hunk) : List Text :=
  (hunk.lines.filter (!hasMark '-' ·)).map (·.drop 1)

end Hunk

/-- The hunks for one file. -/
structure FilePatch where
  path : String
  hunks : List Hunk
deriving DecidableEq, Repr

end Traceability
