/-
# Traceability.Patch.Apply -- the text a patch would leave

Two ways of placing a hunk.  Anchored placement looks for the old side of the
hunk among the lines of the file: where the header says, shifted by what the
hunks before it changed, or else at the nearest place where it occurs.  Substring
placement takes no account of headers and context: it replaces the first
occurrence of the removed lines.

Lines are compared up to carriage returns at their end, and lines put into a
file that ends its lines with carriage returns get one.
-/
import Traceability.Patch.Basic

namespace Traceability

set_option autoImplicit false

/-- How hunks are placed. -/
inductive PatchMode where
  | anchored
  | substring
deriving DecidableEq, Repr

namespace PatchMode

/-- The name under which a mode is chosen. -/
def name : PatchMode → String
  | .anchored => "anchored"
  | .substring => "substring"

def all : List PatchMode := [.anchored, .substring]

def ofName? (name : String) : Option PatchMode := all.find? (·.name == name)

end PatchMode

/-- Why a hunk cannot be placed. -/
inductive ConflictReason where
  /-- The hunk has lines beyond the counts of its header. -/
  | surplus
  /-- The old side of the hunk does not occur in the file. -/
  | noMatch
deriving DecidableEq, Repr

/-- The reason in words. -/
def ConflictReason.message : ConflictReason → String
  | .surplus => "hunk body exceeds its header line counts"
  | .noMatch => "context does not match file content"

/-- A hunk that cannot be placed: its file, its number from zero, and why. -/
structure PatchConflict where
  path : String
  hunk : Nat
  reason : ConflictReason
deriving DecidableEq, Repr

/-- The conflict in words. -/
def PatchConflict.message (conflict : PatchConflict) : String :=
  s!"{conflict.path}: hunk #{conflict.hunk + 1}: {conflict.reason.message}"

/-! ## Where a block of lines occurs -/

/-- The numbers of the lines at which a block occurs, counted from `number`. -/
def occurrencesFrom (block : List Text) : (number : Nat) → List Text → List Nat
  | number, [] => if block.isEmpty then [number] else []
  | number, line :: rest =>
      let later := occurrencesFrom block (number + 1) rest
      if block.isPrefixOf (line :: rest) then number :: later else later

/-- The numbers of the lines at which a block occurs up to carriage returns. -/
def occurrences (lines block : List Text) : List Nat :=
  occurrencesFrom (block.map Text.dropReturns) 0 (lines.map Text.dropReturns)

/-- The candidate nearest to a place, the smaller one of two that are equally near; the candidates
are in increasing order. -/
def nearest (place : Int) : List Nat → Option Nat
  | [] => none
  | first :: rest =>
      match nearest place rest with
      | none => some first
      | some other =>
          if ((other : Int) - place).natAbs < ((first : Int) - place).natAbs then some other
          else some first

/-- Where a block goes: nearest to the expected place, or at its first occurrence when none is
expected.  An empty block goes to the expected place itself, within the file, or to its end. -/
def locate (lines block : List Text) (expected : Option Int) : Option Nat :=
  if block.isEmpty then
    match expected with
    | none => some lines.length
    | some place => some (min place lines.length).toNat
  else
    match expected with
    | none => (occurrences lines block).head?
    | some place => nearest place (occurrences lines block)

/-! ## Anchored placement -/

/-- The line before which a hunk belongs, counted from zero.  An empty old range names the line
after which the new lines go. -/
def HunkRange.base (range : HunkRange) : Int :=
  if range.oldCount = 0 then range.oldStart else range.oldStart - 1

/-- A file in the course of a patch: its lines, and how far they have moved against the headers. -/
structure Placement where
  lines : List Text
  shift : Int

/-- A line with a carriage return at its end. -/
def withReturn (line : Text) : Text := if line.endsWith ['\r'] then line else line ++ ['\r']

def Placement.place (returns : Bool) (file : Placement) (hunk : Hunk) :
    Except ConflictReason Placement :=
  if hunk.hasSurplusChanges then .error .surplus
  else
    let old := hunk.oldSide
    let new := if returns then hunk.newSide.map withReturn else hunk.newSide
    let base := hunk.range.map HunkRange.base
    match locate file.lines old (base.map (· + file.shift)) with
    | none => .error .noMatch
    | some position =>
        .ok ⟨file.lines.take position ++ new ++ file.lines.drop (position + old.length),
          match base with
          | some base => position - base + new.length - old.length
          | none => file.shift⟩

/-- The file after all hunks, the first of which has the given number. -/
def Placement.placeAll (returns : Bool) (path : String) :
    (number : Nat) → Placement → List Hunk → Except PatchConflict Placement
  | _, file, [] => .ok file
  | number, file, hunk :: rest =>
      match file.place returns hunk with
      | .error reason => .error ⟨path, number, reason⟩
      | .ok next => next.placeAll returns path (number + 1) rest

/-- The lines of a file, the line end after the last one not counted; an empty file has none. -/
def fileLines (content : Text) : List Text :=
  let lines := if content.endsWith ['\n'] then content.lines.dropLast else content.lines
  if lines = [[]] then [] else lines

/-- Does the file end its lines with carriage returns?  The first line tells. -/
def usesReturns (lines : List Text) : Bool := (lines.head?.map (·.endsWith ['\r'])).getD false

/-- The text after anchored placement of the hunks. -/
def applyAnchored (path : String) (content : Text) (hunks : List Hunk) :
    Except PatchConflict Text := do
  let lines := fileLines content
  let file ← Placement.placeAll (usesReturns lines) path 0 ⟨lines, 0⟩ hunks
  let text := Text.unlines file.lines
  return if content.endsWith ['\n'] then text ++ ['\n'] else text

/-! ## Substring placement -/

/-- The text after substring placement of one hunk.  A hunk that removes nothing puts its lines at
the end, and one whose removed lines do not occur changes nothing. -/
def substituteHunk (content : Text) (hunk : Hunk) : Text :=
  let added := hunk.addedLines
  match hunk.removedLines with
  | [] => if added.isEmpty then content else content ++ '\n' :: Text.unlines added
  | removed => Text.replaceFirst (Text.unlines removed) (Text.unlines added) content

/-- The text after substring placement of the hunks. -/
def applySubstring (content : Text) (hunks : List Hunk) : Text := hunks.foldl substituteHunk content

/-- The text that the hunks would leave of the file at a path. -/
def applyHunks (mode : PatchMode) (path : String) (content : Text) (hunks : List Hunk) :
    Except PatchConflict Text :=
  match mode with
  | .anchored => applyAnchored path content hunks
  | .substring => .ok (applySubstring content hunks)

end Traceability
