/-
# Traceability.Json.Basic -- document values

Stores, snapshots, task trees, rationale maps and configurations are all read
as `Json`.  An object is a list of fields in the order in which their names
first appear; `setField` gives a name its value and keeps the place the name
already has.
-/
import Traceability.Json.Binary64

namespace Traceability

set_option autoImplicit false

/-- A document value. -/
inductive Json where
  | null
  | bool (value : Bool)
  | int (value : Int)
  | real (value : Binary64)
  | string (value : String)
  | array (items : List Json)
  | object (fields : List (String × Json))
deriving Inhabited, Repr

namespace Json

/-- The fields of an object. -/
abbrev Fields := List (String × Json)

def field? (fields : Fields) (name : String) : Option Json := fields.lookup name

/-- The fields with one more, or with a new value in the place of the old one. -/
def setField (fields : Fields) (name : String) (value : Json) : Fields :=
  match fields with
  | [] => [(name, value)]
  | (other, old) :: rest =>
      if other == name then (name, value) :: rest else (other, old) :: setField rest name value

/-- The fields whose names are not among those given. -/
def fieldsExcept (names : List String) (fields : Fields) : Fields :=
  fields.filter fun field => !names.contains field.1

def string? : Json → Option String
  | .string s => some s
  | _ => none

def array? : Json → Option (List Json)
  | .array items => some items
  | _ => none

def object? : Json → Option Fields
  | .object fields => some fields
  | _ => none

/-- The strings of a value that is an array of strings. -/
def strings? (value : Json) : Option (List String) := value.array?.bind (·.mapM string?)

/-- Does the value count as given?  Null, false, zero and everything empty do not. -/
def isGiven : Json → Bool
  | .null => false
  | .bool b => b
  | .int n => n != 0
  | .real x => !x.isZero
  | .string s => s != ""
  | .array items => !items.isEmpty
  | .object fields => !fields.isEmpty

def isNull : Json → Bool
  | .null => true
  | _ => false

/-- A string, or null for nothing. -/
def ofString? : Option String → Json
  | none => .null
  | some s => .string s

def ofStrings (strings : List String) : Json := .array (strings.map .string)

end Json

end Traceability
