/-
# Traceability.Digest.Sha1 -- SHA-1

Each block is stretched to a schedule of 80 words, and four groups of twenty
rounds, each with a mixing function and a constant of its own, mix the schedule
into a state of five words.
-/
import Traceability.Digest.Padding

namespace Traceability.Digest.Sha1

set_option autoImplicit false

/-- The state of five words. -/
structure State where
  a : UInt32
  b : UInt32
  c : UInt32
  d : UInt32
  e : UInt32

/-- The first state. -/
def initial : State := ⟨0x67452301, 0xefcdab89, 0x98badcfe, 0x10325476, 0xc3d2e1f0⟩

/-- One more word of the schedule, from four earlier ones. -/
def nextWord (schedule : Array UInt32) : UInt32 :=
  let back (n : Nat) := schedule.getD (schedule.size - n) 0
  rotateLeft (back 3 ^^^ back 8 ^^^ back 14 ^^^ back 16) 1

/-- The schedule with `more` words added. -/
def extend : Nat → Array UInt32 → Array UInt32
  | 0, schedule => schedule
  | more + 1, schedule => extend more (schedule.push (nextWord schedule))

/-- The mixing function and the constant of a round. -/
def mix (s : State) (index : Nat) : UInt32 × UInt32 :=
  if index < 20 then ((s.b &&& s.c) ||| (~~~s.b &&& s.d), 0x5a827999)
  else if index < 40 then (s.b ^^^ s.c ^^^ s.d, 0x6ed9eba1)
  else if index < 60 then ((s.b &&& s.c) ||| (s.b &&& s.d) ||| (s.c &&& s.d), 0x8f1bbcdc)
  else (s.b ^^^ s.c ^^^ s.d, 0xca62c1d6)

/-- One round with a word of the schedule and the round's index. -/
def round (s : State) (step : UInt32 × Nat) : State :=
  let mixed := mix s step.2
  ⟨rotateLeft s.a 5 + mixed.1 + s.e + mixed.2 + step.1, s.a, rotateLeft s.b 30, s.c, s.d⟩

def compress (s : State) (block : Array UInt32) : State :=
  let t := ((extend 64 block).toList.zip (List.range 80)).foldl round s
  ⟨s.a + t.a, s.b + t.b, s.c + t.c, s.d + t.d, s.e + t.e⟩

/-- The digest of a message: 20 octets. -/
def digest (message : List UInt8) : List UInt8 :=
  let s := (messageBlocks .mostSignificantFirst message).foldl compress initial
  [s.a, s.b, s.c, s.d, s.e].flatMap fun w => ByteOrder.mostSignificantFirst.octets 4 w.toNat

end Traceability.Digest.Sha1
