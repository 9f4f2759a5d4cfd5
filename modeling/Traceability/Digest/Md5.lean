/-
# Traceability.Digest.Md5 -- MD5

Four groups of sixteen rounds mix the words of a block, each group in an order
of its own, into a state of four words.  Words and lengths are read with the
least significant octet first.
-/
import Traceability.Digest.Padding

namespace Traceability.Digest.Md5

set_option autoImplicit false

/-- The round constants: the first 32 bits of the absolute sines of 1 to 64. -/
def constants : List UInt32 := [
  0xd76aa478, 0xe8c7b756, 0x242070db, 0xc1bdceee, 0xf57c0faf, 0x4787c62a, 0xa8304613, 0xfd469501,
  0x698098d8, 0x8b44f7af, 0xffff5bb1, 0x895cd7be, 0x6b901122, 0xfd987193, 0xa679438e, 0x49b40821,
  0xf61e2562, 0xc040b340, 0x265e5a51, 0xe9b6c7aa, 0xd62f105d, 0x02441453, 0xd8a1e681, 0xe7d3fbc8,
  0x21e1cde6, 0xc33707d6, 0xf4d50d87, 0x455a14ed, 0xa9e3e905, 0xfcefa3f8, 0x676f02d9, 0x8d2a4c8a,
  0xfffa3942, 0x8771f681, 0x6d9d6122, 0xfde5380c, 0xa4beea44, 0x4bdecfa9, 0xf6bb4b60, 0xbebfbc70,
  0x289b7ec6, 0xeaa127fa, 0xd4ef3085, 0x04881d05, 0xd9d4d039, 0xe6db99e5, 0x1fa27cf8, 0xc4ac5665,
  0xf4292244, 0x432aff97, 0xab9423a7, 0xfc93a039, 0x655b59c3, 0x8f0ccc92, 0xffeff47d, 0x85845dd1,
  0x6fa87e4f, 0xfe2ce6e0, 0xa3014314, 0x4e0811a1, 0xf7537e82, 0xbd3af235, 0x2ad7d2bb, 0xeb86d391]

/-- The turns of the sixteen rounds of each group, in cycles of four. -/
def turns : List (List UInt32) := [[7, 12, 17, 22], [5, 9, 14, 20], [4, 11, 16, 23], [6, 10, 15, 21]]

/-- The state of four words. -/
structure State where
  a : UInt32
  b : UInt32
  c : UInt32
  d : UInt32

/-- The first state. -/
def initial : State := ⟨0x67452301, 0xefcdab89, 0x98badcfe, 0x10325476⟩

/-- The mixing function of a round and the index of the word it takes. -/
def mix (s : State) (index : Nat) : UInt32 × Nat :=
  if index < 16 then ((s.b &&& s.c) ||| (~~~s.b &&& s.d), index)
  else if index < 32 then ((s.d &&& s.b) ||| (~~~s.d &&& s.c), (5 * index + 1) % 16)
  else if index < 48 then (s.b ^^^ s.c ^^^ s.d, (3 * index + 5) % 16)
  else (s.c ^^^ (s.b ||| ~~~s.d), 7 * index % 16)

/-- One round with the block, the round's index and its constant. -/
def round (block : Array UInt32) (s : State) (step : Nat × UInt32) : State :=
  let mixed := mix s step.1
  let turn := (turns.getD (step.1 / 16) []).getD (step.1 % 4) 0
  let sum := s.a + mixed.1 + step.2 + block.getD mixed.2 0
  ⟨s.d, s.b + rotateLeft sum turn, s.b, s.c⟩

def compress (s : State) (block : Array UInt32) : State :=
  let t := ((List.range 64).zip constants).foldl (round block) s
  ⟨s.a + t.a, s.b + t.b, s.c + t.c, s.d + t.d⟩

/-- The digest of a message: 16 octets. -/
def digest (message : List UInt8) : List UInt8 :=
  let s := (messageBlocks .leastSignificantFirst message).foldl compress initial
  [s.a, s.b, s.c, s.d].flatMap fun w => ByteOrder.leastSignificantFirst.octets 4 w.toNat

end Traceability.Digest.Md5
