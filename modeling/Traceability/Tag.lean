/-
# Traceability.Tag -- tags in source text

A tag is a comment line that names the requirements a piece of code serves.  It
is put on a line of its own above the declaration of the construct it belongs
to, with the same indentation, or at the top of the text when no line declares
that construct.
-/
import Traceability.Store.Basic
import Traceability.Text.Pattern

namespace Traceability

set_option autoImplicit false

def tagMark : String := "@MATRIX:"

/-- The tag of a target.  An expected tag is taken as it is when it begins like a comment, and is
made a comment otherwise; without one the tag names the sources. -/
def composeTag (language : Language) (sources : List String) (expectedTag : String) : Text :=
  if expectedTag = "" then
    (language.commentMark ++ " " ++ tagMark ++ " " ++ ", ".intercalate sources).toList
  else if Text.startsWithAny expectedTag.toList [['/', '/'], ['#']] then expectedTag.toList
  else (language.commentMark ++ " " ++ expectedTag).toList

/-! ## Lines that declare a construct -/

/-- Words that introduce a name in one of the languages. -/
def declarationWords : List String :=
  ["fn", "def", "class", "struct", "enum", "trait", "interface", "type", "function", "func"]

def qualifierWords : List String :=
  ["export", "default", "public", "private", "protected", "static", "abstract", "async", "unsafe",
    "const", "inline", "virtual"]

/-- Any number of qualifiers, each followed by blanks. -/
def qualifiers : Pattern :=
  .many (.seq
    (.alt (.seq (.exactly "pub".toList) (.optional .parenthesised)) (.oneOf qualifierWords))
    .gap)

/-- What must hold after a name for it to stand by itself: after a word no word character follows,
and after anything else one does. -/
def nameEnd (name : Text) : Pattern :=
  if (name.getLast?.map Text.isWord).getD false then .wordEnd else .wordStart

/-- What follows the indentation of a line that declares a name. -/
def declarationPattern (name : Text) : Pattern :=
  .all [qualifiers, .oneOf declarationWords, .gap, .optional (.seq .parenthesised .blanks),
    .exactly name, nameEnd name]

def declaresName (name line : Text) : Bool := (declarationPattern name).accepts line.trimLeft

/-! ## Inserting a tag -/

/-- The line with the tag that goes above a line, with its indentation and its line end. -/
def tagLine (tag line : Text) : Text :=
  line.indentation ++ tag ++ (if line.endsWith ['\r'] then ['\r'] else [])

/-- The lines with a tag above the first one that declares the name, if one does. -/
def insertAbove? (name tag : Text) : List Text → Option (List Text)
  | [] => none
  | line :: rest =>
      if declaresName name line then some (tagLine tag line :: line :: rest)
      else (insertAbove? name tag rest).map (line :: ·)

def insertOnTop (tag content : Text) : Text :=
  let returns := (content.lines.head?.map (·.endsWith ['\r'])).getD false
  tag ++ (if returns then ['\r', '\n'] else ['\n']) ++ content

/-- The text with a tag above the construct, or on top when none is named or found. -/
def insertTag (content tag : Text) (construct : Option String) : Text :=
  match (construct.filter (· != "")).bind fun name => insertAbove? name.toList tag content.lines with
  | some lines => Text.unlines lines
  | none => insertOnTop tag content

end Traceability
