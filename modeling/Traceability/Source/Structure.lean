/-
# Traceability.Source.Structure -- the constructs of a source text

The structure of a source text is found line by line: every line that declares
something in the text's language family opens a construct, which reaches as far
as `extentLength` says.  `parse` lists the constructs with their fingerprints
and `extract?` gives the source of one of them.

The family is the one that was asked for, else that of the file's name, else
the first in which some line declares something.
-/
import Traceability.Snapshot.Basic
import Traceability.Source.Declaration
import Traceability.Source.Extent
import Traceability.Source.Fingerprint

namespace Traceability

set_option autoImplicit false

/-- A declaration: what is declared, and the lines it covers from `start` up to but not including
`stop`, counted from zero. -/
structure Declaration where
  name : String
  kind : ConstructKind
  start : Nat
  stop : Nat
deriving DecidableEq, Repr

/-- The declarations of a family on lines of which the first has number `number`. -/
def declarationsFrom (family : Family) : (number : Nat) → List Text → List Declaration
  | _, [] => []
  | number, line :: rest =>
      let later := declarationsFrom family (number + 1) rest
      match declared? family line with
      | some (name, kind) =>
          ⟨name, kind, number, number + extentLength family (line :: rest)⟩ :: later
      | none => later

/-- The declarations of a family, in the order of their first lines. -/
def declarations (family : Family) (lines : List Text) : List Declaration :=
  declarationsFrom family 0 lines

def Declaration.text (declaration : Declaration) (lines : List Text) : Text :=
  Text.unlines ((lines.drop declaration.start).take (declaration.stop - declaration.start))

/-- The first family in which some line declares something; the last one when there is none. -/
def guessFamily (lines : List Text) : Family :=
  (Family.all.find? fun family => lines.any fun line => (declared? family line).isSome).getD .c

def Family.commentStyle : Family → CommentStyle
  | .python => .hash
  | _ => .slash

/-- A reader of source text: the family to read it in, if fixed, and how fingerprints are taken. -/
structure SourceParser where
  family? : Option Family := none
  settings : FingerprintSettings := {}
deriving DecidableEq, Repr

namespace SourceParser

/-- The family in which a text is read. -/
def familyOf (parser : SourceParser) (path : String) (lines : List Text) : Family :=
  (parser.family?.or (Family.ofPath? (Path.ofString path))).getD (guessFamily lines)

def construct (parser : SourceParser) (family : Family) (lines : List Text)
    (declaration : Declaration) : Construct :=
  ⟨declaration.name, declaration.kind,
    some (fingerprint parser.settings family.commentStyle (declaration.text lines))⟩

def parse (parser : SourceParser) (content : Text) (path : String) : Node :=
  let lines := content.lines
  let family := parser.familyOf path lines
  let constructs := (declarations family lines).map (parser.construct family lines)
  ⟨path, path, constructs.filter (·.kind = .callable), constructs.filter (·.kind = .data), []⟩

/-- The source of the first construct of a name, each line tried in all the families in turn. -/
def extractFrom (families : List Family) (name : String) : List Text → Option Text
  | [] => none
  | line :: rest =>
      match families.find? fun family => (declared? family line).any (·.1 == name) with
      | some family =>
          some (Text.unlines ((line :: rest).take (extentLength family (line :: rest))))
      | none => extractFrom families name rest

def extract? (parser : SourceParser) (content : Text) (name : String) : Option Text :=
  extractFrom (parser.family?.elim Family.all ([·])) name content.lines

end SourceParser

end Traceability
