/-
# Traceability.Text.Casing -- lower case

Lower case over all of Unicode.  Two letters are special: the dotted capital I
becomes two characters, and a capital sigma becomes the final form when it ends
a word, that is, when a letter with case stands before it and none after it,
characters such as apostrophes and combining marks not counted.
-/
import Traceability.Text.CharClass
import Traceability.Text.Table.Casing

namespace Traceability.Text

set_option autoImplicit false

/-- The distance to the lower-case letter, read from a list of runs. -/
def lowercaseDistance (n : Nat) : List (Nat × Nat × Nat × Int) → Int
  | [] => 0
  | (first, last, step, distance) :: rest =>
      if first ≤ n && n ≤ last && (n - first) % step == 0 then distance
      else lowercaseDistance n rest

/-- The lower-case form of one character outside any context. -/
def lowercaseChar (c : Char) : Text :=
  if c.toNat < 128 then [c.toLower]
  else if c.toNat = 0x130 then ['i', '\u0307']
  else [Char.ofNat (c.toNat + lowercaseDistance c.toNat Table.lowercaseRuns).toNat]

/-- A character that the search for the context of a sigma skips. -/
def isCaseIgnorable (c : Char) : Bool :=
  if c.toNat < 128 then ['\'', '.', ':', '^', '\x60'].contains c
  else changesUpTo c.toNat Table.caseIgnorableChanges false

def isCased (c : Char) : Bool :=
  if c.toNat < 128 then c.isAlpha else changesUpTo c.toNat Table.casedChanges false

/-- Does a letter with case follow, ignorable characters skipped? -/
def caseFollows (text : Text) : Bool := ((text.dropWhile isCaseIgnorable).head?.map isCased).getD false

/-- Lower case of the rest of a text; `after` says whether the last character before it that
counts is a letter with case. -/
def lowercaseFrom (after : Bool) : Text → Text
  | [] => []
  | c :: rest =>
      let here := if c = 'Σ' && after && !caseFollows rest then ['ς'] else lowercaseChar c
      here ++ lowercaseFrom (if isCaseIgnorable c then after else isCased c) rest

def lowercase (text : Text) : Text := lowercaseFrom false text

end Traceability.Text

namespace Traceability

def lowercaseName (name : String) : String := String.ofList (Text.lowercase name.toList)

end Traceability
