/-
# Traceability.Store.Document -- stores as documents

`ofJson` reads a store and `toJson` writes one, with the known fields of every
record first, in a fixed order, and the others after them in theirs.  A store
is written as indented text that ends in a line feed (`Store.text`).
-/
import Traceability.Store.Basic
import Traceability.Document

namespace Traceability

set_option autoImplicit false

/-- Why a store is refused. -/
inductive StoreFault where
  | unreadable (path : String) (cause : ReadFault)
  | notAnObject
  | linksNotAList
  | versionNotAString
  | recordNotAnObject (place : String)
  | field (place : String) (fault : FieldFault)
  | invalidValue (place : String) (value : Json) (allowed : List String)
  | noSources (place : String)
  | noTargets (place : String)
  | orphansNotAnObject
  | orphansNotStrings (name : String)

/-- The fault in words; `detail` words the cause of an unreadable file. -/
def StoreFault.messageWith (detail : ReadFault → String) : StoreFault → String
  | .unreadable path cause => s!"Cannot read store {path}: {detail cause}"
  | .notAnObject => "store: expected a JSON object at top level"
  | .linksNotAList => "store: 'links' must be a list"
  | .versionNotAString => "store: 'matrix_version' must be a string"
  | .recordNotAnObject place => s!"{place}: expected an object"
  | .field place fault => s!"{place}: {fault.message}"
  | .invalidValue place value allowed =>
      place ++ ": invalid value " ++ String.ofList value.literal ++ " (expected one of: " ++
        ", ".intercalate allowed ++ ")"
  | .noSources place => s!"{place}: needs at least one string source"
  | .noTargets place => s!"{place}: needs at least one target"
  | .orphansNotAnObject => "orphans: expected an object"
  | .orphansNotStrings name => s!"orphans: '{name}' must be a list of strings"

/-! ## Reading -/

/-- The member of a list of choices whose word a value is. -/
def choice {α : Type} (all : List α) (word : α → String) (place : String) (value : Json) :
    Except StoreFault α :=
  match value.string?.bind fun s => all.find? (word · == s) with
  | some found => .ok found
  | none => .error (.invalidValue place value (all.map word))

def Target.ofJson (place : String) (value : Json) : Except StoreFault Target := do
  let .object fields := value | throw (.recordNotAnObject place)
  let languageWord ← (Json.requireString fields "language").mapError (.field place)
  let language ← choice Language.all Language.word place (.string languageWord)
  let filePath ← (Json.requireString fields "file_path").mapError (.field place)
  let expectedTag ← (Json.requireString fields "expected_tag").mapError (.field place)
  let constructName ← (Json.optionalString fields "construct_name").mapError (.field place)
  let expectedFingerprint ← (Json.optionalString fields "expected_hash").mapError (.field place)
  let extras := Json.fieldsExcept
    ["file_path", "construct_name", "language", "expected_tag", "expected_hash"] fields
  return ⟨filePath, language, expectedTag, constructName, expectedFingerprint, extras⟩

/-- The link that a value describes; `place` names it in faults until its identifier is known. -/
def Link.ofJson (place : String) (value : Json) : Except StoreFault Link := do
  let .object fields := value | throw (.recordNotAnObject place)
  let matrixId ← (Json.requireString fields "matrix_id").mapError (.field place)
  let place := s!"link {matrixId}"
  let sourceItems ← (Json.requireList fields "layer1_sources").mapError (.field place)
  let some sources := sourceItems.mapM Json.string? | throw (.noSources place)
  if sources.isEmpty then throw (.noSources place)
  let targetItems ← (Json.requireList fields "layer3_targets").mapError (.field place)
  if targetItems.isEmpty then throw (.noTargets place)
  let targets ← targetItems.zipIdx.mapM fun (item, index) =>
    Target.ofJson s!"{place} target #{index + 1}" item
  let cardinality ← choice Cardinality.all Cardinality.word place
    ((Json.field? fields "cardinality").getD (.string "1:1"))
  let status ← choice LinkStatus.all LinkStatus.word place
    ((Json.field? fields "status").getD (.string "BROKEN"))
  let lastVerified ← (Json.optionalString fields "last_verified").mapError (.field place)
  let extras := Json.fieldsExcept
    ["matrix_id", "cardinality", "layer1_sources", "layer3_targets", "status", "last_verified"] fields
  return ⟨matrixId, cardinality, sources, targets, status, lastVerified, extras⟩

/-- A list of strings among the orphans, which may be left out. -/
def Orphans.stringsField (fields : Json.Fields) (name : String) : Except StoreFault (List String) :=
  match Json.field? fields name with
  | none => .ok []
  | some value =>
      match value.strings? with
      | some strings => .ok strings
      | none => .error (.orphansNotStrings name)

/-- The orphans that a value describes; null stands for none. -/
def Orphans.ofJson : Json → Except StoreFault Orphans
  | .null => .ok ⟨[], [], []⟩
  | .object fields => do
      let sources ← stringsField fields "unlinked_requirements"
      let tags ← stringsField fields "unlinked_code_tags"
      return ⟨sources, tags,
        Json.fieldsExcept ["unlinked_requirements", "unlinked_code_tags"] fields⟩
  | _ => .error .orphansNotAnObject

def Store.ofJson (document : Json) : Except StoreFault Store := do
  let .object fields := document | throw .notAnObject
  let .array items := (Json.field? fields "links").getD (.array []) | throw .linksNotAList
  let .string version := (Json.field? fields "matrix_version").getD (.string currentVersion)
    | throw .versionNotAString
  let links ← items.zipIdx.mapM fun (item, index) => Link.ofJson s!"link #{index + 1}" item
  let orphans ← Orphans.ofJson ((Json.field? fields "orphans").getD .null)
  return ⟨version, links, orphans,
    Json.fieldsExcept ["matrix_version", "links", "orphans"] fields⟩

/-! ## Writing -/

/-- A field that is written only when there is a value. -/
def optionalField (name : String) (value : Option String) : Json.Fields :=
  (value.map fun s => (name, Json.string s)).toList

def Target.toJson (target : Target) : Json :=
  .object (("file_path", .string target.filePath) ::
    optionalField "construct_name" target.constructName ++
    [("language", .string target.language.word), ("expected_tag", .string target.expectedTag)] ++
    optionalField "expected_hash" target.expectedFingerprint ++ target.extras)

def Link.toJson (link : Link) : Json :=
  .object ([("matrix_id", .string link.matrixId),
    ("cardinality", .string link.cardinality.word),
    ("layer1_sources", Json.ofStrings link.sources),
    ("layer3_targets", .array (link.targets.map Target.toJson)),
    ("status", .string link.status.word)] ++
    optionalField "last_verified" link.lastVerified ++ link.extras)

def Orphans.toJson (orphans : Orphans) : Json :=
  .object ([("unlinked_requirements", Json.ofStrings orphans.unlinkedSources),
    ("unlinked_code_tags", Json.ofStrings orphans.unlinkedTags)] ++ orphans.extras)

def Store.toJson (store : Store) : Json :=
  .object ([("matrix_version", .string store.version),
    ("links", .array (store.links.map Link.toJson)),
    ("orphans", store.orphans.toJson)] ++ store.extras)

def Store.text (store : Store) : Text := store.toJson.render .plain ++ ['\n']

end Traceability
