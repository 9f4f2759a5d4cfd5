/-
# Traceability.Toml.Reader -- configuration texts

The reader turns a text into statements, headers and entries, and
`Toml.Table` turns the statements into tables.  Values are strings, whole
numbers, truth values, arrays and inline tables; an inline table may stretch
over lines and end in a comma.

Every reader takes the text that is left and returns what remains after it, or
`none` when the text is no configuration.

A workspace is read with any reader (`Surroundings.readToml`); this one, which knows
neither fractions nor dates, is the one that the program brings.
-/
import Traceability.Json.Reader
import Traceability.Text.CharClass
import Traceability.Toml.Table

namespace Traceability.Toml

set_option autoImplicit false

/-! ## Blanks and comments -/

def isGap (c : Char) : Bool := c == ' ' || c == '\t'

def isBlankOrEnd (c : Char) : Bool := isGap c || c == '\n' || c == '\r'

def skipGap (text : Text) : Text := text.dropWhile isGap

/-- A character that no comment and no string on one line may hold. -/
def isForbidden (c : Char) : Bool := (c.toNat < 32 && c != '\t') || c.toNat == 127

/-- The text after a comment, up to the end of its line. -/
def skipComment : Text → Option Text
  | [] => some []
  | c :: rest =>
      if c = '\n' || c = '\r' then some (c :: rest) else if isForbidden c then none else skipComment rest

/-- The text after a line end, if there is one: a carriage return, a line feed, or both. -/
def skipLineEnd : Text → Text
  | '\r' :: '\n' :: rest => rest
  | '\r' :: rest => rest
  | '\n' :: rest => rest
  | text => text

/-- The text after the end of a statement's line: only blanks and a comment may stand there. -/
def endLine (text : Text) : Option Text :=
  match text.dropWhile fun c => isGap c || c == '\r' with
  | [] => some []
  | '\n' :: rest => some rest
  | '#' :: rest => (skipComment rest).map skipLineEnd
  | _ => none

/-- The text without blanks, line ends and comments; `fuel` bounds the number of comments. -/
def skipSpread : Nat → Text → Option Text
  | 0, text => some text
  | fuel + 1, text =>
      match text.dropWhile isBlankOrEnd with
      | '#' :: rest => (skipComment rest).bind (skipSpread fuel)
      | rest => some rest

/-! ## Strings -/

def hexNumber? (digits : Text) : Option Nat :=
  digits.foldlM (fun n c => (Json.hexValue? c).map (16 * n + ·)) 0

/-- The character with a number, if there is one. -/
def charOf? (n : Nat) : Option Char := if n.isValidChar then some (Char.ofNat n) else none

/-- The character that a letter after a backslash means. -/
def escape? : Char → Option Char
  | 'b' => some '\x08'
  | 't' => some '\t'
  | 'n' => some '\n'
  | 'f' => some '\x0c'
  | 'r' => some '\r'
  | 'e' => some '\x1b'
  | '"' => some '"'
  | '\\' => some '\\'
  | _ => none

/-- The number of hexadecimal digits after a letter that announces them. -/
def escapeWidth? : Char → Option Nat
  | 'x' => some 2
  | 'u' => some 4
  | 'U' => some 8
  | _ => none

/-- The text of an escape, which starts after the backslash, and what remains.  At a line end within
a string of several lines the escape stands for nothing and takes the blanks around the line end. -/
def readEscape (several : Bool) : Text → Option (Text × Text)
  | [] => none
  | c :: rest =>
      if several && isBlankOrEnd c then
        let blanks := (c :: rest).takeWhile isBlankOrEnd
        if blanks.contains '\n' then some ([], (c :: rest).dropWhile isBlankOrEnd) else none
      else
        match escape? c, escapeWidth? c with
        | some char, _ => some ([char], rest)
        | none, some width => do
            let digits := rest.take width
            if digits.length < width then none
            else
              let char ← (hexNumber? digits).bind charOf?
              some ([char], rest.drop width)
        | none, none => none

/-- The characters of a string on one line up to its quote, and what remains. -/
def readShort (quote : Char) : Nat → Text → Option (Text × Text)
  | 0, _ => none
  | _ + 1, [] => none
  | fuel + 1, c :: rest =>
      if c = quote then some ([], rest)
      else if isForbidden c then none
      else if quote = '"' && c = '\\' then do
        let (chars, rest) ← readEscape false rest
        let (more, rest) ← readShort quote fuel rest
        some (chars ++ more, rest)
      else do
        let (more, rest) ← readShort quote fuel rest
        some (c :: more, rest)

/-- The characters of a string of several lines up to its three quotes, and what remains.  Up to two
more quotes directly before the closing ones belong to the string. -/
def readLong (quote : Char) : Nat → Text → Option (Text × Text)
  | 0, _ => none
  | _ + 1, [] => none
  | fuel + 1, c :: rest =>
      if c = quote then
        let quotes := (c :: rest).takeWhile (· == quote)
        let after := (c :: rest).dropWhile (· == quote)
        if quotes.length < 3 then do
          let (more, rest) ← readLong quote fuel after
          some (quotes ++ more, rest)
        else if quotes.length < 6 then some (quotes.drop 3, after)
        else none
      else if isForbidden c && c != '\n' && c != '\r' then none
      else if quote = '"' && c = '\\' then do
        let (chars, rest) ← readEscape true rest
        let (more, rest) ← readLong quote fuel rest
        some (chars ++ more, rest)
      else do
        let (more, rest) ← readLong quote fuel rest
        some (c :: more, rest)

/-- A string that may stretch over lines; a line end right after the opening quotes is dropped. -/
def readSeveral (quote : Char) (text : Text) : Option (Text × Text) :=
  let text := match text with
    | '\n' :: rest => rest
    | '\r' :: '\n' :: rest => rest
    | _ => text
  readLong quote (text.length + 1) text

def readQuoted (quote : Char) (text : Text) : Option (Text × Text) :=
  match text with
  | a :: b :: rest =>
      if a = quote && b = quote then readSeveral quote rest
      else readShort quote (text.length + 1) text
  | _ => readShort quote (text.length + 1) text

/-! ## Keys -/

def isBare (c : Char) : Bool := (c.toNat < 128 && c.isAlphanum) || c == '-' || c == '_'

/-- One part of a key, the blanks after it included. -/
def readKeyPart (text : Text) : Option (String × Text) :=
  match skipGap text with
  | [] => none
  | c :: rest =>
      if c = '"' || c = '\'' then do
        let (chars, rest) ← readShort c (rest.length + 1) rest
        some (String.ofList chars, skipGap rest)
      else
        let isPart (c : Char) := isBare c || isGap c
        let part := Text.trim ((c :: rest).takeWhile isPart)
        if part.isEmpty || part.contains ' ' then none
        else some (String.ofList part, (c :: rest).dropWhile isPart)

def readKey : Nat → Text → Option (List String × Text)
  | 0, _ => none
  | fuel + 1, text => do
      let (part, rest) ← readKeyPart text
      match rest with
      | '.' :: rest =>
          let (parts, rest) ← readKey fuel rest
          some (part :: parts, rest)
      | _ => some ([part], rest)

/-! ## Values -/

/-- The digits of a base in front of which a number says `0x`, `0o` or `0b`. -/
def digitIn (base : Nat) (c : Char) : Bool := (Json.hexValue? c).any (· < base)

/-- A number without the underscores between its digits. -/
def dropUnderscores (base : Nat) : (before : Option Char) → Text → Text
  | _, [] => []
  | before, c :: rest =>
      let between := (before.any (digitIn base)) && (rest.head?.any (digitIn base))
      if c = '_' && between then dropUnderscores base (some c) rest
      else c :: dropUnderscores base (some c) rest

/-- The number that digits of a base write, at least one. -/
def numberIn (base : Nat) (digits : Text) : Option Nat :=
  if digits.isEmpty || !digits.all (digitIn base) then none
  else digits.foldlM (fun n c => (Json.hexValue? c).map (base * n + ·)) 0

def readInteger (text : Text) : Option Int :=
  match text with
  | '+' :: rest => (unsigned rest).map Int.ofNat
  | '-' :: rest => (unsigned rest).map fun n => -(n : Int)
  | '0' :: 'x' :: rest => (based 16 rest).map Int.ofNat
  | '0' :: 'o' :: rest => (based 8 rest).map Int.ofNat
  | '0' :: 'b' :: rest => (based 2 rest).map Int.ofNat
  | _ => (unsigned text).map Int.ofNat
where
  /-- Digits after the mark of a base. -/
  based (base : Nat) (digits : Text) : Option Nat :=
    numberIn base (dropUnderscores base none digits)
  /-- Decimal digits; only zero itself starts with a zero. -/
  unsigned (digits : Text) : Option Nat :=
    if 1 < digits.length && digits.head? = some '0' then none
    else numberIn 10 (dropUnderscores 10 none digits)

def endsWord (c : Char) : Bool := isBlankOrEnd c || c == '#' || c == ',' || c == ']' || c == '\x7d'

def readWord (text : Text) : Option (Json × Text) :=
  if "true".toList.isPrefixOf text then some (.bool true, text.drop 4)
  else if "false".toList.isPrefixOf text then some (.bool false, text.drop 5)
  else
    (readInteger (text.takeWhile (!endsWord ·))).map fun n =>
      (.int n, text.dropWhile (!endsWord ·))

/-- The text after the equals sign between a key and its value, blanks included. -/
def skipEquals (text : Text) : Option Text :=
  match skipGap text with
  | '=' :: rest => some (skipGap rest)
  | _ => none

mutual

def readValue : Nat → Text → Option (Json × Text)
  | 0, _ => none
  | fuel + 1, text =>
      match text with
      | '"' :: rest =>
          (readQuoted '"' rest).map fun (chars, rest) => (.string (String.ofList chars), rest)
      | '\'' :: rest =>
          (readQuoted '\'' rest).map fun (chars, rest) => (.string (String.ofList chars), rest)
      | '[' :: rest => (readItems fuel rest).map fun (items, rest) => (.array items, rest)
      | '\x7b' :: rest =>
          (readEntries fuel [] rest).map fun (entries, rest) => (.object (fieldsOf entries), rest)
      | text => readWord text

/-- The items of an array up to its closing bracket. -/
def readItems : Nat → Text → Option (List Json × Text)
  | 0, _ => none
  | fuel + 1, text => do
      match ← skipSpread text.length text with
      | ']' :: rest => some ([], rest)
      | text =>
          let (item, rest) ← readValue fuel text
          match ← skipSpread rest.length rest with
          | ']' :: rest => some ([item], rest)
          | ',' :: rest =>
              let (items, rest) ← readItems fuel rest
              some (item :: items, rest)
          | _ => none

/-- The entries of an inline table up to its closing brace, added to those before them. -/
def readEntries : Nat → Entries → Text → Option (Entries × Text)
  | 0, _, _ => none
  | fuel + 1, before, text => do
      match ← skipSpread text.length text with
      | '\x7d' :: rest => some (before, rest)
      | text =>
          let (key, rest) ← readKey text.length text
          let (value, rest) ← readValue fuel (← skipEquals rest)
          let entries ← assign key value before
          match ← skipSpread rest.length rest with
          | '\x7d' :: rest => some (entries, rest)
          | ',' :: rest => readEntries fuel entries rest
          | _ => none

end

/-! ## Statements -/

/-- A header after its first bracket.  The second closing bracket of an element's header is taken
unseen. -/
def readHeader (text : Text) : Option (Statement × Text) := do
  let (isElement, text) := match text with
    | '[' :: rest => (true, rest)
    | _ => (false, text)
  let (key, rest) ← readKey text.length text
  match rest with
  | ']' :: rest =>
      let rest ← endLine (if isElement then rest.drop 1 else rest)
      some (.header isElement key, rest)
  | _ => none

/-- A key, its value and the end of the line. -/
def readEntry (text : Text) : Option (Statement × Text) := do
  let (key, rest) ← readKey text.length text
  let rest ← skipEquals rest
  let (value, rest) ← readValue (2 * rest.length + 2) rest
  some (.entry key value, ← endLine rest)

def readStatements : Nat → Text → Option (List Statement)
  | 0, _ => none
  | fuel + 1, text =>
      match text.dropWhile fun c => isGap c || c == '\r' with
      | [] => some []
      | '\n' :: rest => readStatements fuel rest
      | '#' :: rest => (skipComment rest).bind fun rest => readStatements fuel (skipLineEnd rest)
      | '[' :: rest => do
          let (statement, rest) ← readHeader rest
          some (statement :: (← readStatements fuel rest))
      | _ => do
          let (statement, rest) ← readEntry text
          some (statement :: (← readStatements fuel rest))

/-- The fields that a configuration text describes. -/
def read? (text : Text) : Option Json.Fields := do
  fieldsOfStatements (← readStatements (text.length + 1) text)

end Traceability.Toml
