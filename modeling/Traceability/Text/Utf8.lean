/-
# Traceability.Text.Utf8 -- text in octets

`pieces` reads octets as a sequence of characters and ill-formed places.  An
ill-formed place is the longest run of octets that could have begun a character
and did not become one, so the two readings of a file are both read off the
same sequence: `decode?` refuses a file with an ill-formed place, and
`decodeLossy` puts one replacement character for each.

A character of more than one octet is read through a `Pending` state that
fixes which octets may come next.  The bounds on the second octet refuse
over-long forms, surrogates and code points past the last one.
-/
import Traceability.Text.Basic

namespace Traceability.Text.Utf8

set_option autoImplicit false

/-- A character read in part: its bits so far, how many octets are missing, and the bounds of the
next one. -/
structure Pending where
  bits : Nat
  missing : Nat
  low : Nat
  high : Nat

/-- What one octet does to the reader. -/
inductive Step where
  | finish (c : Char)
  | wait (pending : Pending)
  | refuse

/-- The first octet of a character. -/
def start (octet : UInt8) : Step :=
  let n := octet.toNat
  if n < 0x80 then .finish (Char.ofNat n)
  else if 0xc2 ≤ n && n ≤ 0xdf then .wait ⟨n - 0xc0, 1, 0x80, 0xbf⟩
  else if n == 0xe0 then .wait ⟨0, 2, 0xa0, 0xbf⟩
  else if n == 0xed then .wait ⟨0xd, 2, 0x80, 0x9f⟩
  else if 0xe1 ≤ n && n ≤ 0xef then .wait ⟨n - 0xe0, 2, 0x80, 0xbf⟩
  else if n == 0xf0 then .wait ⟨0, 3, 0x90, 0xbf⟩
  else if 0xf1 ≤ n && n ≤ 0xf3 then .wait ⟨n - 0xf0, 3, 0x80, 0xbf⟩
  else if n == 0xf4 then .wait ⟨4, 3, 0x80, 0x8f⟩
  else .refuse

def Pending.feed (pending : Pending) (octet : UInt8) : Step :=
  let n := octet.toNat
  if pending.low ≤ n && n ≤ pending.high then
    let bits := 64 * pending.bits + (n - 0x80)
    if pending.missing ≤ 1 then .finish (Char.ofNat bits)
    else .wait ⟨bits, pending.missing - 1, 0x80, 0xbf⟩
  else .refuse

/-- The characters of the octets, with `none` for every ill-formed place. -/
def pieces : Option Pending → List UInt8 → List (Option Char)
  | none, [] => []
  | some _, [] => [none]
  | none, octet :: rest =>
      match start octet with
      | .finish c => some c :: pieces none rest
      | .wait pending => pieces (some pending) rest
      | .refuse => none :: pieces none rest
  | some pending, octet :: rest =>
      match pending.feed octet with
      | .finish c => some c :: pieces none rest
      | .wait next => pieces (some next) rest
      | .refuse =>
          none ::
            match start octet with
            | .finish c => some c :: pieces none rest
            | .wait next => pieces (some next) rest
            | .refuse => none :: pieces none rest

def decode? (octets : List UInt8) : Option Text := (pieces none octets).mapM id

/-- The text of any octets, with U+FFFD for every ill-formed place. -/
def decodeLossy (octets : List UInt8) : Text := (pieces none octets).map (·.getD '\ufffd')

def encodeChar (c : Char) : List UInt8 :=
  let n := c.toNat
  let tail (shift : Nat) : UInt8 := UInt8.ofNat (0x80 + n / shift % 64)
  if n < 0x80 then [UInt8.ofNat n]
  else if n < 0x800 then [UInt8.ofNat (0xc0 + n / 64), tail 1]
  else if n < 0x10000 then [UInt8.ofNat (0xe0 + n / 4096), tail 64, tail 1]
  else [UInt8.ofNat (0xf0 + n / 262144), tail 4096, tail 64, tail 1]

def encode (text : Text) : List UInt8 := text.flatMap encodeChar

end Traceability.Text.Utf8

namespace Traceability.Text

/-- The text with every line end (a carriage return and a line feed, or a lone carriage return)
written as a line feed.  Every file is read this way. -/
def unifyLineEnds : Text → Text
  | [] => []
  | '\r' :: '\n' :: rest => '\n' :: unifyLineEnds rest
  | c :: rest => (if c = '\r' then '\n' else c) :: unifyLineEnds rest

end Traceability.Text
