/-
# Traceability.Text.Quoted -- a text shown between quotes

Error messages and lists show a text between quotes in such a way that every
character can be told: single quotes unless the text holds a single quote and
no double quote, a backslash before the quote and before a backslash, short
escapes for tab, line feed and carriage return, and hexadecimal escapes of two,
four or eight digits for every other character that cannot be shown.
-/
import Traceability.Text.CharClass

namespace Traceability.Text

set_option autoImplicit false

/-- Hexadecimal digits of `n` in lower case, filled with zeros to `width`. -/
def hex (width n : Nat) : Text :=
  let digits := Nat.toDigits 16 n
  List.replicate (width - digits.length) '0' ++ digits

/-- The quote to use: a double one only for a text that holds single quotes and no double ones. -/
def quoteFor (text : Text) : Char :=
  if text.contains '\'' && !text.contains '"' then '"' else '\''

def quotedChar (quote c : Char) : Text :=
  if c = quote || c = '\\' then ['\\', c]
  else if c = '\t' then ['\\', 't']
  else if c = '\n' then ['\\', 'n']
  else if c = '\r' then ['\\', 'r']
  else if isPrintable c then [c]
  else if c.toNat ≤ 0xff then ['\\', 'x'] ++ hex 2 c.toNat
  else if c.toNat ≤ 0xffff then ['\\', 'u'] ++ hex 4 c.toNat
  else ['\\', 'U'] ++ hex 8 c.toNat

def quoted (text : Text) : Text :=
  let quote := quoteFor text
  quote :: text.flatMap (quotedChar quote) ++ [quote]

end Traceability.Text
