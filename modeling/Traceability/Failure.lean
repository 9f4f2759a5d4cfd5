/-
# Traceability.Failure -- why a command or an operation fails

Every failure is a cause, with what a message needs to name it;
`Failure.message` words it.  The wording of a cause that lies outside the
library's own rules, such as malformed JSON, is a parameter of
`Failure.messageWith`.
-/
import Traceability.Disk
import Traceability.Store.Document
import Traceability.Snapshot.Document
import Traceability.Patch.Apply

namespace Traceability

set_option autoImplicit false

/-- What is wrong with the configuration. -/
inductive ConfigFault where
  | fileMissing (path : String)
  | unreadable (path : String) (cause : ReadFault)
  | invalidToml
  | unknownPatchMode (value : Json)

/-- What is wrong with a task tree or a rationale map. -/
inductive DocumentFault where
  | notAnObject
  | notAList (name : String)
deriving DecidableEq, Repr

/-- Why a structural parser cannot be had. -/
inductive ParserFault where
  | cannotImport (name : String)
  | noParser (name : String)
deriving DecidableEq, Repr

/-- Why a command or an operation fails. -/
inductive Failure where
  | store (fault : StoreFault)
  | snapshot (fault : SnapshotFault)
  | document (fault : DocumentFault)
  | config (fault : ConfigFault)
  | parser (fault : ParserFault)
  | conflict (conflict : PatchConflict)
  | unknownAlgorithm (value : Json)
  | unknownFamily (name : String)
  | unsupportedUnit (name : String)
  /-- A file that must be read cannot be. -/
  | unreadable (cause : ReadFault)
  /-- A file that must be written cannot be. -/
  | unwritten (fault : WriteFault)
  /-- The disk does not say what lies at a path. -/
  | denied (reason : String)
  /-- A value of the wrong type stands in a place that nobody checked. -/
  | wrongType
  /-- A part of the configuration that must be a table is none. -/
  | notATable
  /-- A time lies outside the years 1 to 9999. -/
  | timeOutOfRange

/-- Words for the causes that lie outside the library's own rules. -/
structure DetailWords where
  read : ReadFault → String := ReadFault.message
  toml : String := "the text is not a configuration"
  module : String := "there is no such module"

/-- The fault in words. -/
def ConfigFault.messageWith (words : DetailWords) : ConfigFault → String
  | .fileMissing path => s!"Config file not found: {path}"
  | .unreadable path cause => s!"Cannot read {path}: {words.read cause}"
  | .invalidToml => s!"Invalid TOML: {words.toml}"
  | .unknownPatchMode value =>
      "Unknown patch mode: " ++ String.ofList value.literal ++ " (expected anchored or substring)"

def DocumentFault.message : DocumentFault → String
  | .notAnObject => "expected a JSON object at top level"
  | .notAList name => s!"'{name}' must be a list"

def ParserFault.messageWith (words : DetailWords) : ParserFault → String
  | .cannotImport name => s!"Cannot import parser module {name}: {words.module}"
  | .noParser name => s!"{name} defines neither create_parser() nor Parser"

def Failure.messageWith (words : DetailWords) : Failure → String
  | .store fault => fault.messageWith words.read
  | .snapshot fault => fault.messageWith words.read
  | .document fault => fault.message
  | .config fault => fault.messageWith words
  | .parser fault => fault.messageWith words
  | .conflict found => found.message
  | .unknownAlgorithm value => s!"Unsupported hash algorithm: {value.shown}"
  | .unknownFamily name => s!"Unknown language family: {name}"
  | .unsupportedUnit name => s!"Unsupported parse kind: {name}"
  | .unreadable cause => words.read cause
  | .unwritten fault => fault.message
  | .denied reason => reason
  | .wrongType => "a value has the wrong type"
  | .notATable => "a section of the configuration is not a table"
  | .timeOutOfRange => "date value out of range"

def Failure.message (failure : Failure) : String := failure.messageWith {}

end Traceability
