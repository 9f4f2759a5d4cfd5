/-
# Traceability.Source.Comment -- source text without comments and without layout

A construct is compared by its logic, not by its comments or its layout.
`stripComments` takes comments out and keeps the line structure;
`normalizeLogic` also drops blank lines and writes every run of blanks as one
space.

Comments are told by marks alone, not by reading the language: a line comment
starts at the first mark that does not follow a quote (or, for two slashes, a
colon, as in an address), and a block comment runs from its opening mark to the
next closing mark.  A block comment that is never closed is no comment.
-/
import Traceability.Text.CharClass

namespace Traceability

set_option autoImplicit false

/-- How comments are written. -/
inductive CommentStyle where
  /-- A number sign starts a line comment. -/
  | hash
  /-- Two slashes start a line comment, and there are block comments. -/
  | slash
  /-- Two slashes start a line comment; block comments count as code. -/
  | slashLinesOnly
deriving DecidableEq, Repr

namespace CommentStyle

/-- The style of a name; every name other than the first two means line comments alone. -/
def ofName (name : String) : CommentStyle :=
  if name = "hash" then .hash else if name = "slash" then .slash else .slashLinesOnly

def mark : CommentStyle → Text
  | .hash => ['#']
  | _ => ['/', '/']

/-- The characters after which the mark starts no comment. -/
def shields : CommentStyle → Text
  | .hash => ['"', '\'']
  | _ => [':', '"', '\'']

def hasBlocks : CommentStyle → Bool
  | .slash => true
  | _ => false

end CommentStyle

/-- The text without block comments.  The first argument holds, latest first, what has been read
since an opening mark; it comes back when no closing mark follows. -/
def dropBlockComments : Option Text → Text → Text
  | none, '/' :: '*' :: rest => dropBlockComments (some []) rest
  | none, c :: rest => c :: dropBlockComments none rest
  | none, [] => []
  | some _, '*' :: '/' :: rest => dropBlockComments none rest
  | some held, c :: rest => dropBlockComments (some (c :: held)) rest
  | some held, [] => '/' :: '*' :: held.reverse

/-- The line up to its line comment; `before` is the character in front of it. -/
def dropLineComment (style : CommentStyle) : Option Char → Text → Text
  | _, [] => []
  | before, c :: rest =>
      if style.mark.isPrefixOf (c :: rest) && !(before.any style.shields.contains) then []
      else c :: dropLineComment style (some c) rest

/-- The source text without comments, line for line. -/
def stripComments (style : CommentStyle) (content : Text) : Text :=
  let content := if style.hasBlocks then dropBlockComments none content else content
  Text.unlines (content.lines.map (dropLineComment style none))

/-- The text with every run of blanks written as one space; `inRun` says whether the character
before it was a blank. -/
def collapseBlanks (inRun : Bool) : Text → Text
  | [] => []
  | c :: rest =>
      if Text.isBlank c then
        if inRun then collapseBlanks true rest else ' ' :: collapseBlanks true rest
      else c :: collapseBlanks false rest

/-- A line with its runs of blanks collapsed and none at its ends. -/
def normalizeLine (line : Text) : Text := Text.trim (collapseBlanks false line)

/-- The source text without comments, blank lines and layout. -/
def normalizeLogic (style : CommentStyle) (content : Text) : Text :=
  Text.unlines (((stripComments style content).lines.map normalizeLine).filter (!·.isEmpty))

end Traceability
