/-
# Traceability.Config -- the configuration of a workspace

A configuration is an object of sections.  Three layers make it up: the built-in
values, a configuration file laid over them (`merge`), and environment variables
(`applyVariable`).  A variable names a section and a key; since keys may hold
underscores, the section is the longest one that fits.
-/
import Traceability.Json.Reader
import Traceability.Text.Casing

namespace Traceability.Config

set_option autoImplicit false

def fileName : String := ".hybrid-matrix.toml"

/-- The places of the workspace's documents.  All but the last lie in the state directory. -/
def defaultPaths : Json.Fields :=
  [("state_dir", .string ".hybrid"), ("store", .string "hybrid-matrix.json"),
    ("snapshot", .string "hybrid-rcp.json"), ("task_tree", .string "hybrid-tree.json"),
    ("rationale_map", .string "genesis-map.json")]

def default : Json.Fields :=
  [("paths", .object defaultPaths),
    ("validation", .object [("strict_drift", .bool false)]),
    ("simulation", .object [("patch_mode", .string "anchored")]),
    ("parser", .object [("module", .string "")]),
    ("fingerprint", .object [("length", .int 16), ("algorithm", .string "sha256")])]

/-! ## Layers -/

mutual

/-- The fields of `base` with others laid over them. -/
def merge (base : Json.Fields) : List (String × Json) → Json.Fields
  | [] => base
  | (name, value) :: rest =>
      merge (Json.setField base name (mergeValue (Json.field? base name) value)) rest

/-- A value laid over an old one: tables are merged, everything else is replaced. -/
def mergeValue (old : Option Json) : Json → Json
  | .object fields =>
      match old with
      | some (.object base) => .object (merge base fields)
      | _ => .object fields
  | value => value

end

/-! ## Environment variables -/

/-- The beginning of the names of the variables that count. -/
def variableMark : Text := "HYBRID_MATRIX_".toList

/-- The value that the text of a variable means: a truth value, an array or object that can be read,
or the text itself. -/
def variableValue (text : String) : Json :=
  let trimmed := Text.trim text.toList
  let word := Text.lowercase trimmed
  if word = "true".toList then .bool true
  else if word = "false".toList then .bool false
  else if trimmed.head? = some '[' || trimmed.head? = some '\x7b' then
    (Json.read? text.toList).getD (.string text)
  else .string text

/-- The key that a variable names in a section, when the section fits. -/
def keyIn (rest : Text) (name : String) : Option Text :=
  let opening := name.toList ++ ['_']
  if opening.isPrefixOf rest then some (rest.drop opening.length) else none

/-- The longest table that fits what a variable names, with its fields and the key in it. -/
def sectionFor (rest : Text) : Json.Fields → Option (String × Json.Fields × String)
  | [] => none
  | (name, value) :: others =>
      let later := sectionFor rest others
      match value, keyIn rest name with
      | .object fields, some key =>
          match later with
          | some (other, found) =>
              if name.length < other.length then some (other, found)
              else some (name, fields, String.ofList key)
          | none => some (name, fields, String.ofList key)
      | _, _ => later

def applyVariable (config : Json.Fields) (named : String × String) : Json.Fields :=
  let name := named.1.toList
  if variableMark.isPrefixOf name then
    match sectionFor (Text.lowercase (name.drop variableMark.length)) config with
    | some (name, fields, key) =>
        Json.setField config name
          (.object (Json.setField fields key (variableValue named.2)))
    | none => config
  else config

/-- The configuration after all variables, in their order. -/
def applyVariables (config : Json.Fields) (environment : List (String × String)) : Json.Fields :=
  environment.foldl applyVariable config

end Traceability.Config
