/-
# Traceability.Construct -- named pieces of source text

A construct is what a link can point at inside a file: a callable or a type,
known by its name and, when one was taken, by its fingerprint.
-/

namespace Traceability

set_option autoImplicit false

/-- The two kinds of construct. -/
inductive ConstructKind where
  /-- Functions and methods. -/
  | callable
  /-- Types. -/
  | data
deriving DecidableEq, Repr

/-- The name of a kind in documents. -/
def ConstructKind.name : ConstructKind → String
  | .callable => "outputs"
  | .data => "data"

/-- A named callable or type. -/
structure Construct where
  name : String
  kind : ConstructKind
  fingerprint : Option String
deriving DecidableEq, Repr

/-- The first construct of a name. -/
def Construct.named? (constructs : List Construct) (name : String) : Option Construct :=
  constructs.find? (·.name == name)

end Traceability
