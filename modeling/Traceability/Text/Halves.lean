/-
# Traceability.Text.Halves -- halves of surrogate pairs

A document can name one half of a surrogate pair without the other.  A text that
has such a half is compared, joined and searched like any other, but it cannot
be written: UTF-8 has no octets for a half.

No `Char` is a half, so a block of characters stands for them.  Which block it is
is left open (`Halves`): one that is apart from every character at hand says
nothing wrong about any of them, and `apartFrom` looks for one.
-/
import Traceability.Text.Quoted
import Traceability.Text.Utf8

namespace Traceability.Text

set_option autoImplicit false

/-- The characters that stand for the halves of surrogate pairs, one after the other. -/
structure Halves where
  /-- The code point of the character for the first half, U+D800. -/
  first : Nat := 0x10f800
deriving DecidableEq, Repr

/-- Why a text cannot be written: where its first half stands, and the halves in a row there. -/
structure HalfFault where
  position : Nat
  units : List Nat
deriving DecidableEq, Repr

/-- The fault in words. -/
def HalfFault.message (fault : HalfFault) : String :=
  let place := match fault.units with
    | [unit] => "character '\\u" ++ String.ofList (hex 4 unit) ++ s!"' in position {fault.position}"
    | units => s!"characters in position {fault.position}-{fault.position + units.length - 1}"
  s!"'utf-8' codec can't encode {place}: surrogates not allowed"

namespace Halves

/-- Is a unit of sixteen bits half of a pair? -/
def isHalf (unit : Nat) : Bool := 0xd800 ≤ unit && unit < 0xe000

/-- The character for a unit of sixteen bits. -/
def char (halves : Halves) (unit : Nat) : Char :=
  Char.ofNat (if isHalf unit then halves.first + (unit - 0xd800) else unit)

/-- The half that a character stands for, if it stands for one. -/
def unit? (halves : Halves) (c : Char) : Option Nat :=
  if halves.first ≤ c.toNat && c.toNat < halves.first + 0x800 then
    some (0xd800 + (c.toNat - halves.first))
  else none

/-- What keeps a text from being written. -/
def fault? (halves : Halves) : Text → Option HalfFault
  | [] => none
  | c :: rest =>
      if (halves.unit? c).isSome then
        some ⟨0, ((c :: rest).map halves.unit?).takeWhile (·.isSome) |>.filterMap id⟩
      else (halves.fault? rest).map fun fault => { fault with position := fault.position + 1 }

/-- Blocks of private characters. -/
def blocks : List Halves := (List.range 64).map fun n => ⟨0xf0000 + 0x800 * n⟩

/-- The first block without a character of the text. -/
def apartFrom (text : Text) : Halves :=
  (blocks.find? fun halves => text.all fun c => (halves.unit? c).isNone).getD {}

end Halves

end Traceability.Text
