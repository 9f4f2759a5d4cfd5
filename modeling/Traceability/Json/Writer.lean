/-
# Traceability.Json.Writer -- documents as text

Two ways of writing a value.  `render` writes a JSON document, either on one
line or with one item to a line, and either with all characters as they are or
in ASCII alone.  `shown` writes a value as it appears inside a message: a
string as it is, and everything else as a literal with strings between quotes.
-/
import Traceability.Json.Basic
import Traceability.Text.Quoted

namespace Traceability.Json

set_option autoImplicit false

/-! ## Documents -/

def unitEscape (n : Nat) : Text := ['\\', 'u'] ++ Text.hex 4 n

def stringChar (ascii : Bool) (c : Char) : Text :=
  if c = '"' || c = '\\' then ['\\', c]
  else if c = '\n' then ['\\', 'n']
  else if c = '\r' then ['\\', 'r']
  else if c = '\t' then ['\\', 't']
  else if c = '\x08' then ['\\', 'b']
  else if c = '\x0c' then ['\\', 'f']
  else if c.toNat < 32 || (ascii && 127 ≤ c.toNat && c.toNat < 0x10000) then unitEscape c.toNat
  else if ascii && 0x10000 ≤ c.toNat then
    let n := c.toNat - 0x10000
    unitEscape (0xd800 + n / 1024) ++ unitEscape (0xdc00 + n % 1024)
  else [c]

def stringText (ascii : Bool) (s : String) : Text :=
  '"' :: s.toList.flatMap (stringChar ascii) ++ ['"']

def intText (n : Int) : Text :=
  if n < 0 then '-' :: Nat.toDigits 10 n.natAbs else Nat.toDigits 10 n.natAbs

/-- How a document is laid out. -/
structure Layout where
  /-- Write characters beyond ASCII as escapes. -/
  ascii : Bool
  /-- Blanks for each level, with every item on a line of its own; `none` writes one line. -/
  indent : Option Nat

/-- What stands between the items of an array or an object at a depth, and before the first. -/
def Layout.lineBreak (layout : Layout) (depth : Nat) : Text :=
  match layout.indent with
  | none => []
  | some width => '\n' :: List.replicate (width * depth) ' '

/-- What stands between a field's name and its value. -/
def Layout.colon (layout : Layout) : Text :=
  match layout.indent with
  | none => [':']
  | some _ => [':', ' ']

/-- The words of a document for numbers that are none. -/
def documentWords : Binary64.SpecialWords := ⟨"NaN", "Infinity"⟩

mutual

def renderAt (layout : Layout) (depth : Nat) : Json → Text
  | .null => "null".toList
  | .bool true => "true".toList
  | .bool false => "false".toList
  | .int n => intText n
  | .real x => x.text documentWords
  | .string s => stringText layout.ascii s
  | .array [] => ['[', ']']
  | .array items =>
      '[' :: renderItems layout (depth + 1) true items ++ layout.lineBreak depth ++ [']']
  | .object [] => ['\x7b', '\x7d']
  | .object fields =>
      '\x7b' :: renderFields layout (depth + 1) true fields ++ layout.lineBreak depth ++ ['\x7d']

def renderItems (layout : Layout) (depth : Nat) (isFirst : Bool) : List Json → Text
  | [] => []
  | item :: rest =>
      (if isFirst then [] else [',']) ++ layout.lineBreak depth ++ renderAt layout depth item ++
        renderItems layout depth false rest

def renderFields (layout : Layout) (depth : Nat) (isFirst : Bool) : List (String × Json) → Text
  | [] => []
  | (name, value) :: rest =>
      (if isFirst then [] else [',']) ++ layout.lineBreak depth ++ stringText layout.ascii name ++
        layout.colon ++ renderAt layout depth value ++ renderFields layout depth false rest

end

def render (layout : Layout) (value : Json) : Text := renderAt layout 0 value

/-- One item to a line, characters as they are. -/
def Layout.plain : Layout := ⟨false, some 2⟩

/-- One item to a line, in ASCII alone. -/
def Layout.ascii2 : Layout := ⟨true, some 2⟩

/-- Everything on one line, in ASCII alone. -/
def Layout.oneLine : Layout := ⟨true, none⟩

/-! ## Literals -/

/-- The words of a literal for numbers that are none. -/
def literalWords : Binary64.SpecialWords := ⟨"nan", "inf"⟩

mutual

def literal : Json → Text
  | .null => "None".toList
  | .bool true => "True".toList
  | .bool false => "False".toList
  | .int n => intText n
  | .real x => x.text literalWords
  | .string s => Text.quoted s.toList
  | .array items => '[' :: literalItems true items ++ [']']
  | .object fields => '\x7b' :: literalFields true fields ++ ['\x7d']

def literalItems (isFirst : Bool) : List Json → Text
  | [] => []
  | item :: rest =>
      (if isFirst then [] else [',', ' ']) ++ literal item ++ literalItems false rest

def literalFields (isFirst : Bool) : List (String × Json) → Text
  | [] => []
  | (name, value) :: rest =>
      (if isFirst then [] else [',', ' ']) ++ Text.quoted name.toList ++ [':', ' '] ++
        literal value ++ literalFields false rest

end

def shown : Json → String
  | .string s => s
  | value => String.ofList (literal value)

end Traceability.Json
