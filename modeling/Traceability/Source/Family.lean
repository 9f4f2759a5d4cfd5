/-
# Traceability.Source.Family -- families of source languages

Languages that declare things in the same way form a family.  The family of a
file is read off the ending of its name, whatever its case.
-/
import Traceability.Path
import Traceability.Text.Casing

namespace Traceability

set_option autoImplicit false

/-- A family of languages with one way of declaring things. -/
inductive Family where
  | python
  | rust
  | go
  | js
  | c
deriving DecidableEq, Repr

namespace Family

/-- The name under which a family is chosen. -/
def name : Family → String
  | .python => "python"
  | .rust => "rust"
  | .go => "go"
  | .js => "js"
  | .c => "c"

/-- All families, in the order in which they are tried on a text of unknown language. -/
def all : List Family := [.python, .rust, .go, .js, .c]

def ofName? (name : String) : Option Family := all.find? (·.name == name)

def endings : Family → List String
  | .python => [".py", ".pyw"]
  | .rust => [".rs"]
  | .go => [".go"]
  | .js => [".js", ".jsx", ".ts", ".tsx", ".mjs", ".cjs"]
  | .c => [".c", ".cpp", ".cc", ".cxx", ".h", ".hpp", ".java", ".cs", ".kt"]

/-- The family of a file, by the ending of its name. -/
def ofPath? (path : Path) : Option Family :=
  let ending := String.ofList (Text.lowercase path.ending)
  all.find? (·.endings.contains ending)

end Family

end Traceability
