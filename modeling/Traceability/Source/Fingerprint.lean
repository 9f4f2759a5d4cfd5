/-
# Traceability.Source.Fingerprint -- fingerprints of source text

A fingerprint is the beginning of the digest of a text's normalised logic, so
it stays the same under changes of comments and layout.
-/
import Traceability.Digest.Algorithm
import Traceability.Source.Comment
import Traceability.Text.Casing

namespace Traceability

set_option autoImplicit false

/-- How much of a text to keep: `some n` keeps the first `n` characters, or for a negative `n` all
but the last `-n`; `none` keeps everything. -/
def keepFirst (length : Option Int) (text : Text) : Text :=
  match length with
  | none => text
  | some n => text.take (if n < 0 then (text.length + n).toNat else n.toNat)

/-- How fingerprints are taken. -/
structure FingerprintSettings where
  length : Option Int := some 16
  algorithm : Digest.Algorithm := .sha256
deriving DecidableEq, Repr

/-- The beginning of the digest of a text. -/
def contentHash (settings : FingerprintSettings) (content : Text) : String :=
  String.ofList (keepFirst settings.length (settings.algorithm.hexDigest content))

def fingerprint (settings : FingerprintSettings) (style : CommentStyle) (content : Text) : String :=
  contentHash settings (normalizeLogic style content)

/-- Does the text still have the expected fingerprint?  Case does not matter. -/
def hasFingerprint (settings : FingerprintSettings) (style : CommentStyle) (content : Text)
    (expected : String) : Bool :=
  lowercaseName (fingerprint settings style content) == lowercaseName expected

end Traceability
