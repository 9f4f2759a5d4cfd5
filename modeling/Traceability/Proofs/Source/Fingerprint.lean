/-
# Traceability.Proofs.Source.Fingerprint -- how long a fingerprint is

The length of a fingerprint is settled by how fingerprints are taken, whatever
the text (`length_contentHash`).  In particular either every fingerprint is
empty or none is (`contentHash_ne_empty_iff`).
-/
import Traceability.Source.Fingerprint

namespace Traceability

set_option autoImplicit false

/-! ## Digests -/

theorem Text.length_hex_octet (octet : UInt8) : (Text.hex 2 octet.toNat).length = 2 := by
  have digits : (Nat.toDigits 16 octet.toNat).length ≤ 2 := by
    rw [Nat.length_toDigits_le_iff (by omega) (by omega)]
    exact octet.toNat_lt
  rw [Text.hex, List.length_append, List.length_replicate]
  omega

namespace Digest

theorem length_octets (order : ByteOrder) (width n : Nat) :
    (order.octets width n).length = width := by
  cases order <;> simp [ByteOrder.octets, octets]

/-- The number of hexadecimal digits of a digest. -/
def Algorithm.size : Algorithm → Nat
  | .sha256 => 64
  | .sha1 => 40
  | .md5 => 32

theorem Algorithm.length_digest (algorithm : Algorithm) (message : List UInt8) :
    2 * (algorithm.digest message).length = algorithm.size := by
  cases algorithm <;>
    simp [digest, Sha256.digest, Sha1.digest, Md5.digest, size, length_octets]

theorem Algorithm.length_hexDigest (algorithm : Algorithm) (text : Text) :
    (algorithm.hexDigest text).length = algorithm.size := by
  have pairs : ∀ octets : List UInt8,
      (octets.flatMap fun octet => Text.hex 2 octet.toNat).length = 2 * octets.length := by
    intro octets
    induction octets with
    | nil => rfl
    | cons octet rest ih =>
        rw [List.flatMap_cons, List.length_append, Text.length_hex_octet, ih, List.length_cons]
        omega
  rw [hexDigest, pairs, length_digest]

end Digest

/-! ## Fingerprints -/

/-- The number of characters of a fingerprint. -/
def FingerprintSettings.size (settings : FingerprintSettings) : Nat :=
  match settings.length with
  | none => settings.algorithm.size
  | some n =>
      if n < 0 then (settings.algorithm.size + n).toNat else min n.toNat settings.algorithm.size

theorem length_contentHash (settings : FingerprintSettings) (content : Text) :
    (contentHash settings content).length = settings.size := by
  obtain ⟨length, algorithm⟩ := settings
  have digits := algorithm.length_hexDigest content
  rw [contentHash, String.length_ofList]
  cases length with
  | none => exact digits
  | some n =>
      simp only [keepFirst, FingerprintSettings.size, List.length_take, digits]
      split
      · omega
      · rfl

/-- Fingerprints are all empty or all not, by how they are taken. -/
theorem contentHash_ne_empty_iff (settings : FingerprintSettings) (content : Text) :
    contentHash settings content ≠ "" ↔ 0 < settings.size := by
  rw [← length_contentHash settings content, Nat.pos_iff_ne_zero, ne_eq, ne_eq,
    String.length_eq_zero_iff]

end Traceability
