/-
# Traceability.Document -- records of a document

What all documents share: the faults a record can have, and the readers that
find them.  A fault names the place of the record, such as `link #2`, and says
what is wrong there; `RecordFault.message` words it.
-/
import Traceability.Json.Writer

namespace Traceability

set_option autoImplicit false

/-- Why a document could not be read at all. -/
inductive ReadFault where
  | missing
  | isDirectory
  | notUtf8
  | notJson
  /-- The disk does not open the file. -/
  | refused (reason : String)
deriving DecidableEq, Repr

/-- The reason in words. -/
def ReadFault.message : ReadFault → String
  | .missing => "it does not exist"
  | .isDirectory => "it is a directory"
  | .notUtf8 => "it is not UTF-8 text"
  | .notJson => "it is not a JSON document"
  | .refused reason => reason

/-- The kind of value that a field must have. -/
inductive FieldKind where
  | string
  | list
deriving DecidableEq, Repr

/-- The name of a kind in messages. -/
def FieldKind.name : FieldKind → String
  | .string => "str"
  | .list => "list"

/-- What is wrong with a field of a record. -/
inductive FieldFault where
  | missing (field : String)
  | wrongKind (field : String) (kind : FieldKind)
  | notOptionalString (field : String)
deriving DecidableEq, Repr

/-- The fault in words, after the place of the record. -/
def FieldFault.message : FieldFault → String
  | .missing field => s!"missing required field '{field}'"
  | .wrongKind field kind => s!"field '{field}' must be {kind.name}"
  | .notOptionalString field => s!"field '{field}' must be a string"

namespace Json

def requireString (fields : Fields) (name : String) : Except FieldFault String :=
  match field? fields name with
  | none => .error (.missing name)
  | some (.string s) => .ok s
  | some _ => .error (.wrongKind name .string)

def requireList (fields : Fields) (name : String) : Except FieldFault (List Json) :=
  match field? fields name with
  | none => .error (.missing name)
  | some (.array items) => .ok items
  | some _ => .error (.wrongKind name .list)

/-- The string in a field that may be absent or null. -/
def optionalString (fields : Fields) (name : String) : Except FieldFault (Option String) :=
  match field? fields name with
  | none => .ok none
  | some .null => .ok none
  | some (.string s) => .ok (some s)
  | some _ => .error (.notOptionalString name)

end Json

end Traceability
