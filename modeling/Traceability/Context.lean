/-
# Traceability.Context -- why, what and where of a requirement or task

The context of an identifier is gathered from three documents: the rationale map
says why (the label of the node, and the rationales of the edges that touch it),
the task tree says what (the checklist of the task, or its label), and the store
says where.  The source of the first linked construct is added when its file can
be read.
-/
import Traceability.StructuralParser
import Traceability.Workspace

namespace Traceability

set_option autoImplicit false

/-- A linked place in the code. -/
structure CodeLocation where
  file : String
  construct : Option String
deriving DecidableEq, Repr

/-- What is known about an identifier. -/
structure NodeContext where
  nodeId : String
  why : String
  what : List String
  locations : List CodeLocation
  snippet : Option Text

/-- The document form of a context. -/
def NodeContext.toJson (context : NodeContext) : Json :=
  .object [("node_id", .string context.nodeId), ("why", .string context.why),
    ("what", Json.ofStrings context.what),
    ("where", .array (context.locations.map fun location =>
      .object [("file", .string location.file),
        ("construct", Json.ofString? location.construct)])),
    ("code_snippet", Json.ofString? (context.snippet.map String.ofList))]

/-! ## Documents -/

/-- The document at a path, if there is a file and it does not hold null. -/
def readOptionalDocument (tree : FileTree) (path : Path) : Except Failure (Option Json) := do
  tree.ask path
  if tree.has path then
    match tree.readDocument path with
    | .error cause => throw (.unreadable cause)
    | .ok document => return if document.isNull then none else some document
  else return none

/-- The items of the first of several fields of a document that is given and not null. -/
def nodeList (document : Json) (names : List String) : Except Failure (List Json) :=
  match document with
  | .object fields =>
      match names.find? fun name => !((Json.field? fields name).getD .null).isNull with
      | none => .ok []
      | some name =>
          match Json.field? fields name with
          | some (.array items) => .ok items
          | _ => .error (.document (.notAList name))
  | _ => .error (.document .notAnObject)

def fieldIs (fields : Json.Fields) (name value : String) : Bool :=
  (Json.field? fields name).any fun found => found.string? = some value

/-! ## Why -/

/-- The rationale of an edge that touches a node, if it gives one. -/
def edgeRationale? (nodeId : String) (edge : Json) : Option String := do
  let fields ← edge.object?
  let rationale ← Json.field? fields "rationale"
  if (fieldIs fields "source" nodeId || fieldIs fields "target" nodeId) && rationale.isGiven then
    some rationale.shown
  else none

def unknownRationale : String := "Unknown"

/-- The label of a node in a rationale map and the rationales of the edges that touch it. -/
def rationaleIn (document : Json) (nodeId : String) : Except Failure String := do
  let nodes ← nodeList document ["nodes"]
  let some fields := (nodes.filterMap Json.object?).find? (fieldIs · "id" nodeId)
    | return unknownRationale
  let label := ((Json.field? fields "label").getD (.string nodeId)).shown
  match (← nodeList document ["edges"]).filterMap (edgeRationale? nodeId) with
  | [] => return label
  | rationales => return label ++ " | Rationale: " ++ "; ".intercalate rationales

/-- Why: from the rationale map of a workspace. -/
def collectRationale (workspace : Workspace) (tree : FileTree) (nodeId : String) :
    Except Failure String := do
  match ← readOptionalDocument tree (← workspace.rationaleMapPath) with
  | none => return unknownRationale
  | some document => rationaleIn document nodeId

/-! ## What -/

mutual

/-- The first task with an identifier among items, an item before its children. -/
def findTask? (nodeId : String) : List Json → Except Failure (Option Json)
  | [] => .ok none
  | .object fields :: rest =>
      if fieldIs fields "id" nodeId then .ok (some (.object fields))
      else do
        match ← findInChildren? nodeId fields with
        | some task => return some task
        | none => findTask? nodeId rest
  | _ :: rest => findTask? nodeId rest

/-- The first task with an identifier in the first field named `children`.  Children that are given
must be a list; text and tables hold no task. -/
def findInChildren? (nodeId : String) : List (String × Json) → Except Failure (Option Json)
  | [] => .ok none
  | (name, value) :: rest =>
      if name == "children" then
        match value with
        | .array items => findTask? nodeId items
        | .bool true => .error .wrongType
        | .int n => if n = 0 then .ok none else .error .wrongType
        | .real x => if x.isZero then .ok none else .error .wrongType
        | _ => .ok none
      else findInChildren? nodeId rest

end

/-- The words of a checklist: its items, the characters of a text, or the names of a table. -/
def checklistWords : Json → Except Failure (List String)
  | .array items => .ok (items.map Json.shown)
  | .string s => .ok (s.toList.map fun c => String.ofList [c])
  | .object fields => .ok (fields.map (·.1))
  | _ => .error .wrongType

/-- The checklist of a task, or its label. -/
def taskWords (fields : Json.Fields) (nodeId : String) : Except Failure (List String) :=
  match Json.field? fields "checklist" with
  | none | some .null => .ok [((Json.field? fields "label").getD (.string nodeId)).shown]
  | some checklist => checklistWords checklist

/-- What: from the task tree of a workspace. -/
def collectTasks (workspace : Workspace) (tree : FileTree) (nodeId : String) :
    Except Failure (List String) := do
  let some document ← readOptionalDocument tree (← workspace.taskTreePath) | return []
  match ← findTask? nodeId (← nodeList document ["nodes", "manifest"]) with
  | some (.object fields) => taskWords fields nodeId
  | _ => return []

/-! ## Where -/

def locationsOf (store : Store) (nodeId : String) : List CodeLocation :=
  (store.linksForSource nodeId).flatMap fun link =>
    link.targets.map fun target => ⟨target.filePath, target.constructName⟩

/-- The source of the construct at a place, if it names one and its file exists. -/
def snippetAt (modules : ParserModules) (workspace : Workspace) (tree : FileTree)
    (location : CodeLocation) : Except Failure (Option Text) := do
  let some name := location.construct.filter (· != "") | return none
  let path := workspace.resolve location.file
  tree.ask path
  if (tree.octets? path).isNone then return none
  let choice ← Config.parser modules workspace.config
  let content ← (tree.readText path).mapError .unreadable
  return choice.toParser.extract? content name

def gatherContext (modules : ParserModules) (workspace : Workspace) (tree : FileTree)
    (nodeId : String) : Except Failure NodeContext := do
  let why ← collectRationale workspace tree nodeId
  let what ← collectTasks workspace tree nodeId
  let store ← Store.load tree (← workspace.storePath)
  let locations := locationsOf store nodeId
  let snippet ← match locations with
    | [] => pure none
    | first :: _ => snippetAt modules workspace tree first
  return ⟨nodeId, why, what, locations, snippet⟩

end Traceability
