/-
# Traceability.Digest.Algorithm -- the digests a fingerprint can use

The three digests by name, and the digest of a text: the octets of its UTF-8
form are digested and the result is written in hexadecimal, lower case.
-/
import Traceability.Text.Quoted
import Traceability.Text.Utf8
import Traceability.Digest.Sha256
import Traceability.Digest.Sha1
import Traceability.Digest.Md5

namespace Traceability.Digest

set_option autoImplicit false

/-- A digest algorithm. -/
inductive Algorithm where
  | sha256
  | sha1
  | md5
deriving DecidableEq, Repr

namespace Algorithm

/-- The name under which an algorithm is chosen. -/
def name : Algorithm → String
  | .sha256 => "sha256"
  | .sha1 => "sha1"
  | .md5 => "md5"

def all : List Algorithm := [.sha256, .sha1, .md5]

def ofName? (name : String) : Option Algorithm := all.find? (·.name == name)

def digest : Algorithm → List UInt8 → List UInt8
  | .sha256 => Sha256.digest
  | .sha1 => Sha1.digest
  | .md5 => Md5.digest

def hexDigest (algorithm : Algorithm) (text : Text) : Text :=
  (algorithm.digest (Text.Utf8.encode text)).flatMap fun octet => Text.hex 2 octet.toNat

end Algorithm

end Traceability.Digest
