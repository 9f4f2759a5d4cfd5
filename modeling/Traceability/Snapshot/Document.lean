/-
# Traceability.Snapshot.Document -- snapshots as documents

`ofJson` reads a snapshot and `toJson` writes one.  A node may leave out its
file path, which is then its id, and its lists, which are then empty; a
construct's fingerprint may stand under either of two names.
-/
import Traceability.Snapshot.Basic
import Traceability.Document

namespace Traceability

set_option autoImplicit false

/-- Why a snapshot is refused. -/
inductive SnapshotFault where
  | unreadable (path : String) (cause : ReadFault)
  | notAnObject
  | nodesNotAList
  | nodeNotAnObject (place : String)
  | constructNotAnObject (place : String)
  | field (place : String) (fault : FieldFault)
  | filePathNotAString (place : String)
  | fingerprintNotAString (place name : String)
  | notAList (place name : String)
deriving DecidableEq, Repr

/-- The fault in words; `detail` words the cause of an unreadable file. -/
def SnapshotFault.messageWith (detail : ReadFault → String) : SnapshotFault → String
  | .unreadable path cause => s!"Cannot read snapshot {path}: {detail cause}"
  | .notAnObject => "snapshot: expected a JSON object at top level"
  | .nodesNotAList => "snapshot: 'nodes' must be a list"
  | .nodeNotAnObject place => s!"{place}: node must be an object"
  | .constructNotAnObject place => s!"{place}: construct must be an object"
  | .field place fault => s!"{place}: {fault.message}"
  | .filePathNotAString place => s!"{place}: 'filePath' must be a string"
  | .fingerprintNotAString place name => s!"{place}: fingerprint of '{name}' must be a string"
  | .notAList place name => s!"{place}: '{name}' must be a list"

/-! ## Reading -/

/-- The construct of a kind that a value describes. -/
def Construct.ofJson (kind : ConstructKind) (place : String) (value : Json) :
    Except SnapshotFault Construct := do
  let .object fields := value | throw (.constructNotAnObject place)
  let name ← (Json.requireString fields "name").mapError (.field place)
  match (Json.field? fields "logicHash").getD ((Json.field? fields "fingerprint").getD .null) with
  | .null => return ⟨name, kind, none⟩
  | .string fingerprint => return ⟨name, kind, some fingerprint⟩
  | _ => throw (.fingerprintNotAString place name)

/-- The items of a list that a node may leave out; everything empty stands for the empty list. -/
def Node.listField (fields : Json.Fields) (place name : String) :
    Except SnapshotFault (List Json) :=
  match Json.field? fields name with
  | none => .ok []
  | some (.array items) => .ok items
  | some value => if value.isGiven then .error (.notAList place name) else .ok []

namespace Node

mutual

/-- The node that a value describes; `place` names it in faults until its id is known. -/
def ofJson (place : String) : Json → Except SnapshotFault Node
  | .object fields => do
      let id ← (Json.requireString fields "id").mapError (.field place)
      let place := s!"node {id}"
      let filePath ← match Json.field? fields "filePath" with
        | none => pure id
        | some (.string path) => pure path
        | some _ => throw (.filePathNotAString place)
      let outputs ← (← listField fields place "outputs").mapM (Construct.ofJson .callable place)
      let data ← (← listField fields place "data").mapM (Construct.ofJson .data place)
      let children ← childrenOfJson place fields
      return ⟨id, filePath, outputs, data, children⟩
  | _ => throw (.nodeNotAnObject place)

/-- The nodes in the first field named `children`. -/
def childrenOfJson (place : String) : List (String × Json) → Except SnapshotFault (List Node)
  | [] => return []
  | (name, value) :: rest =>
      if name == "children" then
        match value with
        | .array items => allOfJson place items
        | other => if other.isGiven then throw (.notAList place "children") else return []
      else childrenOfJson place rest

/-- The nodes that values describe, all in one place. -/
def allOfJson (place : String) : List Json → Except SnapshotFault (List Node)
  | [] => return []
  | item :: rest => do
      let node ← ofJson place item
      return node :: (← allOfJson place rest)

end

end Node

def Snapshot.ofJson (document : Json) : Except SnapshotFault Snapshot := do
  let .object fields := document | throw .notAnObject
  let .array items := (Json.field? fields "nodes").getD (.array []) | throw .nodesNotAList
  let nodes ← items.zipIdx.mapM fun (item, index) => Node.ofJson s!"node #{index + 1}" item
  return ⟨nodes⟩

/-! ## Writing -/

def Construct.toJson (construct : Construct) : Json :=
  .object (("name", .string construct.name) ::
    (construct.fingerprint.map fun f => ("logicHash", Json.string f)).toList)

namespace Node

mutual

def toJson : Node → Json
  | ⟨id, filePath, outputs, data, children⟩ =>
      .object [("id", .string id), ("filePath", .string filePath),
        ("outputs", .array (outputs.map Construct.toJson)),
        ("data", .array (data.map Construct.toJson)),
        ("children", .array (allToJson children))]

def allToJson : List Node → List Json
  | [] => []
  | node :: rest => toJson node :: allToJson rest

end

end Node

def Snapshot.toJson (snapshot : Snapshot) : Json :=
  .object [("nodes", .array (Node.allToJson snapshot.nodes))]

end Traceability
