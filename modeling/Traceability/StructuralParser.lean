/-
# Traceability.StructuralParser -- the parser that a configuration chooses

Simulation and context need a parser of source text, but not any particular
one: a `StructuralParser` is a pair of functions.  The built-in one is made from
the fingerprint section of the configuration, whose values are only looked at
when a fingerprint has to be taken.  Other parsers are known by name.
-/
import Traceability.Failure
import Traceability.Source.Structure

namespace Traceability

set_option autoImplicit false

/-- A reader of source text. -/
structure StructuralParser where
  /-- The structure of a text, given the path of its file. -/
  parse : (content : Text) → (path : String) → Except Failure Node
  /-- The source of the first construct of a name. -/
  extract? : (content : Text) → (name : String) → Option Text

/-- The choice of the built-in parser, with the values of the configuration as they are. -/
structure ParserChoice where
  family? : Option Family := none
  length : Json := .int 16
  algorithm : Json := .string "sha256"

namespace ParserChoice

/-- The family of a name. -/
def family (name : String) : Except Failure Family :=
  match Family.ofName? name with
  | some family => .ok family
  | none => .error (.unknownFamily name)

/-- How many characters of a digest a value asks for: a whole number or a truth value counts them,
and null keeps all. -/
def lengthOf : Json → Except Failure (Option Int)
  | .null => .ok none
  | .int n => .ok (some n)
  | .bool b => .ok (some (if b then 1 else 0))
  | _ => .error .wrongType

/-- How fingerprints are taken, if the values say how. -/
def settings (choice : ParserChoice) : Except Failure FingerprintSettings := do
  let some algorithm := choice.algorithm.string?.bind Digest.Algorithm.ofName?
    | throw (.unknownAlgorithm choice.algorithm)
  return ⟨← lengthOf choice.length, algorithm⟩

/-- The structure of a text.  The values for fingerprints matter only if some line declares
something. -/
def parse (choice : ParserChoice) (content : Text) (path : String) : Except Failure Node := do
  let unsettled : SourceParser := ⟨choice.family?, {}⟩
  let lines := content.lines
  if (declarations (unsettled.familyOf path lines) lines).isEmpty then
    return unsettled.parse content path
  else
    return SourceParser.parse ⟨choice.family?, ← choice.settings⟩ content path

/-- The structure of a unit of source text; a file is the only kind of unit. -/
def parseUnit (choice : ParserChoice) (unit : String) (content : Text) (path : String) :
    Except Failure Node :=
  if unit = "file" then choice.parse content path else .error (.unsupportedUnit unit)

def toParser (choice : ParserChoice) : StructuralParser where
  parse := choice.parse
  extract? := SourceParser.extract? ⟨choice.family?, {}⟩

end ParserChoice

/-- What a name that stands for a parser leads to. -/
inductive ParserModule where
  | parser (choice : ParserChoice)
  | noParser

/-- The names that stand for parsers. -/
abbrev ParserModules := List (String × ParserModule)

namespace Config

/-- A section of the configuration that must be a table; a missing one is empty. -/
def table (config : Json.Fields) (name : String) : Except Failure Json.Fields :=
  match Json.field? config name with
  | none => .ok []
  | some (.object fields) => .ok fields
  | some _ => .error .notATable

def parser (modules : ParserModules) (config : Json.Fields) : Except Failure ParserChoice := do
  let chosen := (Json.field? (← table config "parser") "module").getD .null
  if chosen.isGiven then
    let .string name := chosen | throw .notATable
    match modules.lookup name with
    | some (.parser choice) => return choice
    | some .noParser => throw (.parser (.noParser name))
    | none => throw (.parser (.cannotImport name))
  else
    let section_ ← table config "fingerprint"
    return ⟨none, (Json.field? section_ "length").getD (.int 16),
      (Json.field? section_ "algorithm").getD (.string "sha256")⟩

end Config

end Traceability
