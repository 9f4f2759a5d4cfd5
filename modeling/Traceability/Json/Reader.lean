/-
# Traceability.Json.Reader -- documents from text

The reader takes strict JSON and three words for numbers that JSON has no
notation for.  In an object that names a field twice the last value counts, in
the place of the first.  Raw control characters in strings are refused, and so
is anything but white space around the document.

Every reader takes the text that is left and returns what remains after it.
Nesting is bounded by the length of the text, which serves as fuel.  A half of a
surrogate pair that a string names alone is read as the character that stands
for it.
-/
import Traceability.Json.Basic
import Traceability.Text.Halves

namespace Traceability.Json

set_option autoImplicit false

def isSpace (c : Char) : Bool := c == ' ' || c == '\t' || c == '\n' || c == '\r'

def skipSpace (text : Text) : Text := text.dropWhile isSpace

/-! ## Numbers -/

def ofDigits (digits : Text) : Nat := digits.foldl (fun n c => 10 * n + (c.toNat - 48)) 0

/-- Digits at the beginning of a text, and what remains. -/
def takeDigits (text : Text) : Text × Text := (text.takeWhile Char.isDigit, text.dropWhile Char.isDigit)

/-- The whole part of a number: a zero alone, or digits that start with another digit. -/
def readWhole : Text → Option (Text × Text)
  | '0' :: rest => some (['0'], rest)
  | text =>
      match takeDigits text with
      | ([], _) => none
      | found => some found

/-- The digits after a point; nothing is read when no digit follows the point. -/
def readFraction : Text → Text × Text
  | '.' :: rest =>
      match takeDigits rest with
      | ([], _) => ([], '.' :: rest)
      | found => found
  | text => ([], text)

/-- The exponent of a number; nothing is read when it has no digits. -/
def readExponent : Text → Option Int × Text
  | [] => (none, [])
  | e :: rest =>
      if e = 'e' || e = 'E' then
        let (negative, unsigned) := match rest with
          | '-' :: after => (true, after)
          | '+' :: after => (false, after)
          | _ => (false, rest)
        match takeDigits unsigned with
        | ([], _) => (none, e :: rest)
        | (digits, after) =>
            (some (if negative then -(ofDigits digits : Int) else ofDigits digits), after)
      else (none, e :: rest)

/-- A number without its sign: a whole number, or one with a fraction or an exponent. -/
def readUnsigned (negative : Bool) (text : Text) : Option (Json × Text) := do
  let (whole, rest) ← readWhole text
  let (fraction, rest) := readFraction rest
  let (exponent, rest) := readExponent rest
  let value : Json :=
    if fraction.isEmpty && exponent.isNone then
      .int (if negative then -(ofDigits whole : Int) else ofDigits whole)
    else
      .real (Binary64.ofDecimal negative (ofDigits (whole ++ fraction))
        (exponent.getD 0 - fraction.length))
  some (value, rest)

/-! ## Strings -/

def hexValue? (c : Char) : Option Nat :=
  if '0' ≤ c && c ≤ '9' then some (c.toNat - 48)
  else if 'a' ≤ c && c ≤ 'f' then some (c.toNat - 87)
  else if 'A' ≤ c && c ≤ 'F' then some (c.toNat - 55)
  else none

def hexUnit? (a b c d : Char) : Option Nat := do
  return 4096 * (← hexValue? a) + 256 * (← hexValue? b) + 16 * (← hexValue? c) + (← hexValue? d)

/-- The character that a letter after a backslash means. -/
def escape? : Char → Option Char
  | '"' => some '"'
  | '\\' => some '\\'
  | '/' => some '/'
  | 'b' => some '\x08'
  | 'f' => some '\x0c'
  | 'n' => some '\n'
  | 'r' => some '\r'
  | 't' => some '\t'
  | _ => none

/-- The character that two units of sixteen bits mean together, if they do. -/
def joinUnits? (high low : Nat) : Option Char :=
  if 0xd800 ≤ high && high < 0xdc00 && 0xdc00 ≤ low && low < 0xe000 then
    some (Char.ofNat (0x10000 + 1024 * (high - 0xd800) + (low - 0xdc00)))
  else none

/-- The characters of a string up to its closing quote, and what remains. -/
def readString (halves : Text.Halves) : Text → Option (Text × Text)
  | [] => none
  | '"' :: rest => some ([], rest)
  | '\\' :: 'u' :: a :: b :: c :: d :: '\\' :: 'u' :: e :: f :: g :: h :: rest => do
      let first ← hexUnit? a b c d
      match (hexUnit? e f g h).bind (joinUnits? first) with
      | some char =>
          let (chars, rest) ← readString halves rest
          some (char :: chars, rest)
      | none =>
          let (chars, rest) ← readString halves ('\\' :: 'u' :: e :: f :: g :: h :: rest)
          some (halves.char first :: chars, rest)
  | '\\' :: 'u' :: a :: b :: c :: d :: rest => do
      let unit ← hexUnit? a b c d
      let (chars, rest) ← readString halves rest
      some (halves.char unit :: chars, rest)
  | '\\' :: c :: rest => do
      let char ← escape? c
      let (chars, rest) ← readString halves rest
      some (char :: chars, rest)
  | c :: rest =>
      if c.toNat < 32 || c = '\\' then none
      else do
        let (chars, rest) ← readString halves rest
        some (c :: chars, rest)

/-! ## Values -/

def words : List (String × Json) :=
  [("null", .null), ("true", .bool true), ("false", .bool false), ("NaN", .real .nan),
    ("Infinity", .real (.infinite false)), ("-Infinity", .real (.infinite true))]

def readWord (text : Text) : Option (Json × Text) :=
  words.findSome? fun (word, value) =>
    if word.toList.isPrefixOf text then some (value, text.drop word.length) else none

def readScalar (text : Text) : Option (Json × Text) :=
  match text with
  | '-' :: rest => (readUnsigned true rest).or (readWord text)
  | _ => (readUnsigned false text).or (readWord text)

mutual

def readValue (halves : Text.Halves) : Nat → Text → Option (Json × Text)
  | 0, _ => none
  | fuel + 1, text =>
      match text with
      | '"' :: rest => (readString halves rest).map fun (chars, rest) => (.string (String.ofList chars), rest)
      | '[' :: rest =>
          match skipSpace rest with
          | ']' :: rest => some (.array [], rest)
          | rest => (readItems halves fuel rest).map fun (items, rest) => (.array items, rest)
      | '{' :: rest =>
          match skipSpace rest with
          | '}' :: rest => some (.object [], rest)
          | rest => (readFields halves fuel [] rest).map fun (fields, rest) => (.object fields, rest)
      | text => readScalar text

/-- The items of an array up to its closing bracket. -/
def readItems (halves : Text.Halves) : Nat → Text → Option (List Json × Text)
  | 0, _ => none
  | fuel + 1, text => do
      let (item, rest) ← readValue halves fuel text
      match skipSpace rest with
      | ']' :: rest => some ([item], rest)
      | ',' :: rest =>
          let (items, rest) ← readItems halves fuel (skipSpace rest)
          some (item :: items, rest)
      | _ => none

/-- The fields of an object up to its closing brace, added to those before them. -/
def readFields (halves : Text.Halves) : Nat → Fields → Text → Option (Fields × Text)
  | 0, _, _ => none
  | fuel + 1, before, text =>
      match text with
      | '"' :: rest => do
          let (name, rest) ← readString halves rest
          match skipSpace rest with
          | ':' :: rest =>
              let (value, rest) ← readValue halves fuel (skipSpace rest)
              let fields := setField before (String.ofList name) value
              match skipSpace rest with
              | '}' :: rest => some (fields, rest)
              | ',' :: rest => readFields halves fuel fields (skipSpace rest)
              | _ => none
          | _ => none
      | _ => none

end

def read? (text : Text) (halves : Text.Halves := {}) : Option Json := do
  let (value, rest) ← readValue halves (2 * text.length + 2) (skipSpace text)
  if (skipSpace rest).isEmpty then some value else none

end Traceability.Json
