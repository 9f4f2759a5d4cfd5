/-
# Traceability.Text.CharClass -- blank, word, decimal and printable characters

Scanning source code needs four classes of characters over all of Unicode.
Below 128 each class is written out; from 128 on it is read from a table of the
code points at which membership changes (`changesUpTo`).
-/
import Traceability.Text.Basic
import Traceability.Text.Table.Word
import Traceability.Text.Table.Printable

namespace Traceability.Text

set_option autoImplicit false

/-- Is an odd number of the listed points at or below `n`?  `inside` is the answer so far. -/
def changesUpTo (n : Nat) : List Nat → Bool → Bool
  | [], inside => inside
  | point :: rest, inside => if n < point then inside else changesUpTo n rest (!inside)

/-- White space, line ends included: the ASCII blanks, the four ASCII separators, and the
blanks of Unicode.  Zero-width characters are not blank. -/
def isBlank (c : Char) : Bool :=
  let n := c.toNat
  if n < 128 then n == 32 || (9 ≤ n && n ≤ 13) || (28 ≤ n && n ≤ 31)
  else
    n == 0x85 || n == 0xa0 || n == 0x1680 || (0x2000 ≤ n && n ≤ 0x200a) || n == 0x2028 ||
      n == 0x2029 || n == 0x202f || n == 0x205f || n == 0x3000

/-- A letter, a number or an underscore: what identifiers are made of. -/
def isWord (c : Char) : Bool :=
  if c.toNat < 128 then c.isAlphanum || c == '_'
  else changesUpTo c.toNat Table.wordChanges false

/-- The value of a decimal digit of any script, given the code points at which a run of digits
starts and ends. -/
def decimalIn (n : Nat) : List Nat → Option Nat
  | first :: after :: rest =>
      if n < first then none else if n < after then some ((n - first) % 10) else decimalIn n rest
  | _ => none

/-- The value of a decimal digit; `none` for any other character. -/
def decimalValue? (c : Char) : Option Nat :=
  if c.toNat < 128 then if c.isDigit then some (c.toNat - 48) else none
  else decimalIn c.toNat Table.decimalChanges

/-- A decimal digit of any script. -/
def isDecimal (c : Char) : Bool := (decimalValue? c).isSome

/-- A character that can be shown as it is. -/
def isPrintable (c : Char) : Bool :=
  if c.toNat < 128 then 32 ≤ c.toNat && c.toNat ≤ 126
  else changesUpTo c.toNat Table.printableChanges false

/-- The number written by decimal digits, most significant first; other characters count as
zero. -/
def decimalNumber (digits : Text) : Nat :=
  digits.foldl (fun n c => 10 * n + (decimalValue? c).getD 0) 0

/-! ## Blanks at the ends -/

def trimLeft (text : Text) : Text := text.dropWhile isBlank

def trimRight (text : Text) : Text := text.dropEndWhile isBlank

def trim (text : Text) : Text := text.trimLeft.trimRight

def isBlankText (text : Text) : Bool := text.all isBlank

def indentation (text : Text) : Text := text.takeWhile isBlank

theorem indentation_append_trimLeft (text : Text) : text.indentation ++ text.trimLeft = text :=
  List.takeWhile_append_dropWhile

end Traceability.Text
