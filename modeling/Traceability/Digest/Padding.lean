/-
# Traceability.Digest.Padding -- a message cut into blocks of words

The three digests share their outer shape: the message is followed by a one
bit, by zeros and by its length in bits as a 64-bit number, and the result is
read as 32-bit words in blocks of sixteen.  They differ in the order of octets
within a word and within the length.
-/

namespace Traceability.Digest

set_option autoImplicit false

/-- Which octet of a number comes first. -/
inductive ByteOrder where
  | mostSignificantFirst
  | leastSignificantFirst

/-- The octets of `n`, least significant first, `width` of them. -/
def octets (width n : Nat) : List UInt8 :=
  (List.range width).map fun i => UInt8.ofNat (n / Nat.pow 256 i % 256)

/-- The octets of `n` in the given order. -/
def ByteOrder.octets (order : ByteOrder) (width n : Nat) : List UInt8 :=
  match order with
  | .leastSignificantFirst => Digest.octets width n
  | .mostSignificantFirst => (Digest.octets width n).reverse

/-- The message with its padding: a multiple of 64 octets. -/
def padded (order : ByteOrder) (message : List UInt8) : List UInt8 :=
  let size := message.length
  message ++ 0x80 :: List.replicate ((119 - size % 64) % 64) 0 ++ order.octets 8 (8 * size)

/-- The number written by octets, most significant first. -/
def word (octets : List UInt8) : UInt32 :=
  octets.foldl (fun w octet => w <<< 8 ||| octet.toUInt32) 0

/-- Four octets to a word; octets that fill no word are dropped. -/
def words (order : ByteOrder) : List UInt8 → List UInt32
  | a :: b :: c :: d :: rest =>
      (match order with
        | .mostSignificantFirst => word [a, b, c, d]
        | .leastSignificantFirst => word [d, c, b, a]) :: words order rest
  | _ => []

def blocks (count : Nat) (ws : List UInt32) : List (Array UInt32) :=
  match count with
  | 0 => []
  | n + 1 => (ws.take 16).toArray :: blocks n (ws.drop 16)

def messageBlocks (order : ByteOrder) (message : List UInt8) : List (Array UInt32) :=
  let ws := words order (padded order message)
  blocks (ws.length / 16) ws

/-- A word turned left by `amount` bits. -/
def rotateLeft (w : UInt32) (amount : UInt32) : UInt32 := w <<< amount ||| w >>> (32 - amount)

/-- A word turned right by `amount` bits. -/
def rotateRight (w : UInt32) (amount : UInt32) : UInt32 := w >>> amount ||| w <<< (32 - amount)

end Traceability.Digest
