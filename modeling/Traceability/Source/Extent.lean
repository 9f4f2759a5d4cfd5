/-
# Traceability.Source.Extent -- how far a declared construct reaches

A construct starts at its declaration line.  In the family that marks blocks by
indentation it ends before the first line that is indented no deeper than the
declaration; blank lines at its end do not belong to it.  In the families with
braces it ends where its braces are closed, at a semicolon before any brace, or
at once when no body follows.

Extents are counted in lines on the list that starts with the declaration line.
-/
import Traceability.Source.Family
import Traceability.Text.CharClass

namespace Traceability

set_option autoImplicit false

/-! ## Code without comments and literals -/

/-- Where a scan of one line of code is. -/
inductive CodeRegion where
  | code
  | blockComment
  | literal (quote : Char)
  /-- In a literal of a single character, of which this and `more` further characters are left. -/
  | character (more : Nat)

/-- Behind an apostrophe: how many characters, besides the next one, belong to the literal of a
single character that it opens, if it opens one. -/
def characterLiteral? : Text → Option Nat
  | '\\' :: _ :: '\'' :: _ => some 2
  | c :: '\'' :: _ => if c = '\\' || c = '\'' then none else some 1
  | _ => none

/-- The code of one line without comments and literals, and whether a block comment is still open at
its end.  `quotes` are the characters that open and close a literal; besides them an apostrophe
opens a literal of a single character. -/
def bareCode (quotes : Text) : CodeRegion → Text → Text × Bool
  | .blockComment, [] => ([], true)
  | .blockComment, '*' :: '/' :: rest => bareCode quotes .code rest
  | .blockComment, _ :: rest => bareCode quotes .blockComment rest
  | .literal _, [] => ([], false)
  | .literal _, [_] => ([], false)
  | .literal quote, c :: d :: rest =>
      if c = quote then bareCode quotes .code (d :: rest)
      else if c = '\\' then bareCode quotes (.literal quote) rest
      else bareCode quotes (.literal quote) (d :: rest)
  | .character _, [] => ([], false)
  | .character 0, _ :: rest => bareCode quotes .code rest
  | .character (more + 1), _ :: rest => bareCode quotes (.character more) rest
  | .code, [] => ([], false)
  | .code, '/' :: '/' :: _ => ([], false)
  | .code, '/' :: '*' :: rest => bareCode quotes .blockComment rest
  | .code, c :: rest =>
      if quotes.contains c then bareCode quotes (.literal c) rest
      else
        match if c = '\'' then characterLiteral? rest else none with
        | some more => bareCode quotes (.character more) rest
        | none =>
            let later := bareCode quotes .code rest
            (c :: later.1, later.2)

/-! ## Indented blocks -/

/-- What follows the closing quote of a literal, if it is closed. -/
def afterLiteral (quote : Char) : Text → Option Text
  | [] => none
  | [c] => if c = quote then some [] else none
  | c :: d :: rest =>
      if c = quote then some (d :: rest)
      else if c = '\\' then afterLiteral quote rest
      else afterLiteral quote (d :: rest)

/-- The text without closed literals; a quote that opens none stays.  `fuel` bounds the number of
characters looked at. -/
def dropLiterals : Nat → Text → Text
  | 0, text => text
  | _ + 1, [] => []
  | fuel + 1, c :: rest =>
      if c = '"' || c = '\'' then
        match afterLiteral c rest with
        | some after => dropLiterals fuel after
        | none => c :: dropLiterals fuel rest
      else c :: dropLiterals fuel rest

/-- How many more brackets a line opens than it closes, literals and comment left out. -/
def bracketBalance (line : Text) : Int :=
  let code := (dropLiterals line.length line).takeWhile (· != '#')
  (code.filter "([\x7b".toList.contains).length - (code.filter ")]\x7d".toList.contains).length

/-- The lines of a signature: up to the first line after which no bracket is open. -/
def signatureLength (open_ : Int) : List Text → Nat
  | [] => 0
  | line :: rest =>
      let open_ := open_ + bracketBalance line
      if open_ ≤ 0 then 1 else 1 + signatureLength open_ rest

/-- The width of the blanks at the beginning of a line. -/
def indentWidth (line : Text) : Nat := line.indentation.length

/-- The lines of a block indented deeper than `indent`, up to its last line that is not blank. -/
def blockLength (indent : Nat) : List Text → Nat
  | [] => 0
  | line :: rest =>
      if line.isBlankText then
        match blockLength indent rest with
        | 0 => 0
        | n + 1 => n + 2
      else if indentWidth line ≤ indent then 0
      else 1 + blockLength indent rest

/-- The lines of a construct that is delimited by indentation. -/
def indentedLength (lines : List Text) : Nat :=
  match lines with
  | [] => 0
  | first :: _ =>
      let signature := signatureLength 0 lines
      signature + blockLength (indentWidth first) (lines.drop signature)

/-! ## Blocks in braces -/

/-- What a scan of braces and brackets has seen. -/
structure Balance where
  braces : Int
  brackets : Int
  opened : Bool

/-- One character of code. -/
def Balance.step (b : Balance) (c : Char) : Balance :=
  if c = '{' then ⟨b.braces + 1, b.brackets, true⟩
  else if c = '}' then { b with braces := b.braces - 1 }
  else if c = '(' || c = '[' then { b with brackets := b.brackets + 1 }
  else if c = ')' || c = ']' then { b with brackets := b.brackets - 1 }
  else b

/-- The balance after some code, or `none` when a semicolon ends the construct before its body. -/
def Balance.scan : Balance → Text → Option Balance
  | b, [] => some b
  | b, c :: rest =>
      if c = ';' && !b.opened && b.brackets ≤ 0 then none else (b.step c).scan rest

/-- Beginnings of a line that goes on with a declaration before its body opens. -/
def bodyLeads : List Text :=
  ["\x7b", "where", "->", ":", ")", "const", "noexcept", "override", "throws"].map String.toList

/-- Ends of a line whose declaration goes on in the next one. -/
def openEnds : List Text := [",", "=", "|", "&"].map String.toList

/-- Does the next line that is not blank go on with the declaration? -/
def bodyFollows (lines : List Text) : Bool :=
  match lines.dropWhile Text.isBlankText with
  | [] => false
  | line :: _ => line.trimLeft.startsWithAny bodyLeads

/-- The lines of a construct that is delimited by braces, in a scan that has come so far. -/
def bracedLengthFrom (quotes : Text) :
    Balance → (inComment inWhere : Bool) → List Text → Nat
  | _, _, _, [] => 0
  | b, inComment, inWhere, line :: rest =>
      let (code, inComment) := bareCode quotes (if inComment then .blockComment else .code) line
      let inWhere := inWhere || code.trim.startsWith "where".toList
      match b.scan code with
      | none => 1
      | some b =>
          if b.opened && b.braces ≤ 0 then 1
          else if !b.opened && b.brackets ≤ 0 && !inWhere &&
              !openEnds.any code.trimRight.endsWith && !bodyFollows rest then 1
          else 1 + bracedLengthFrom quotes b inComment inWhere rest

/-- The characters that open and close a literal in a family. -/
def Family.quotes : Family → Text
  | .js => ['"', '\'', '\x60']
  | _ => ['"', '\x60']

/-- The lines of a construct that is delimited by braces. -/
def bracedLength (quotes : Text) (lines : List Text) : Nat :=
  bracedLengthFrom quotes ⟨0, 0, false⟩ false false lines

/-- The number of lines of the construct that the first of the lines declares. -/
def extentLength (family : Family) (lines : List Text) : Nat :=
  match family with
  | .python => indentedLength lines
  | family => bracedLength family.quotes lines

end Traceability
