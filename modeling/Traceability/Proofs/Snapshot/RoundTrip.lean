/-
# Traceability.Proofs.Snapshot.RoundTrip -- a snapshot that is written and read again

The kind of a construct is not written: it is told by the list in which the
construct stands.  So a snapshot comes back exactly when each of its nodes, at
every level, lists callables as outputs and types as data
(`Snapshot.ofJson_toJson_iff`).  Whatever is read from a document is like that
(`Snapshot.listsByKind_of_ofJson`), and so is whatever the built-in parser gives;
what a document leaves out or writes in another way is settled by the first
reading.

Places only name faults: which node a value describes does not depend on them
(`Node.ofJson_congr`).
-/
import Traceability.Proofs.Json.Record
import Traceability.Snapshot.Document
import Traceability.Source.Structure

namespace Traceability

set_option autoImplicit false

/-! ## Constructs -/

namespace Construct

variable {kind : ConstructKind} {place : String} {constructs : List Construct}

theorem kind_of_ofJson {value : Json} {construct : Construct}
    (read : ofJson kind place value = .ok construct) : construct.kind = kind := by
  unfold ofJson at read
  cases value with
  | object fields =>
      obtain ⟨name, -, read⟩ := bind_eq_ok_iff.1 read
      split at read <;> cases read <;> rfl
  | _ => cases read

theorem ofJson_toJson {construct : Construct} (fits : construct.kind = kind) :
    ofJson kind place construct.toJson = .ok construct := by
  obtain ⟨name, _, fingerprint⟩ := construct
  subst fits
  cases fingerprint <;> rfl

theorem kind_of_mapM_ofJson {values : List Json}
    (read : values.mapM (ofJson kind place) = .ok constructs) :
    ∀ construct ∈ constructs, construct.kind = kind := by
  intro construct member
  obtain ⟨value, -, readThis⟩ := exists_of_mem_right (mapM_eq_ok_iff.1 read) member
  exact kind_of_ofJson readThis

theorem mapM_ofJson_toJson (fit : ∀ construct ∈ constructs, construct.kind = kind) :
    (constructs.map toJson).mapM (ofJson kind place) = .ok constructs := by
  rw [mapM_eq_ok_iff, List.forall₂_map_left_iff, List.forall₂_same]
  intro construct member
  exact ofJson_toJson (fit construct member)

end Construct

/-! ## Nodes -/

namespace Node

/-- The node lists callables as outputs and types as data. -/
structure ListsByKind (node : Node) : Prop where
  outputs : ∀ construct ∈ node.outputs, construct.kind = .callable
  data : ∀ construct ∈ node.data, construct.kind = .data

theorem allOfJson_eq_mapM (place : String) (items : List Json) :
    allOfJson place items = items.mapM (ofJson place) := by
  induction items with
  | nil => rfl
  | cons item rest ih => simp [allOfJson, ih]

/-- The file path that a node goes by: the given one, or its id. -/
theorem bind_filePath_eq_ok_iff {β : Type} {held : Option Json} {id : String} {fault : SnapshotFault}
    {rest : String → Except SnapshotFault β} {result : β} :
    (match held with
      | none => pure id >>= rest
      | some (.string path) => pure path >>= rest
      | some _ => throw fault >>= rest) = .ok result ↔
      ∃ path, held.getD (.string id) = .string path ∧ rest path = .ok result := by
  cases held with
  | none => simp
  | some value => cases value <;> simp [bind_eq_ok_iff, throw_eq_ok_iff]

/-- The node that an object describes, field by field. -/
theorem ofJson_object_eq_ok_iff {place : String} {fields : Json.Fields} {node : Node} :
    ofJson place (.object fields) = .ok node ↔
      Json.field? fields "id" = some (.string node.id) ∧
      (Json.field? fields "filePath").getD (.string node.id) = .string node.filePath ∧
      (listField fields s!"node {node.id}" "outputs" >>= fun items =>
        items.mapM (Construct.ofJson .callable s!"node {node.id}")) = .ok node.outputs ∧
      (listField fields s!"node {node.id}" "data" >>= fun items =>
        items.mapM (Construct.ofJson .data s!"node {node.id}")) = .ok node.data ∧
      childrenOfJson s!"node {node.id}" fields = .ok node.children := by
  rw [ofJson, bind_eq_ok_iff]
  refine Iff.trans (exists_congr fun id => and_congr_right fun _ => bind_filePath_eq_ok_iff) ?_
  simp only [bind_eq_ok_iff, mapError_eq_ok_iff, Json.requireString_eq_ok_iff, pure, Except.pure,
    Except.ok.injEq]
  constructor
  · rintro ⟨id, named, filePath, path, outputItems, listedOutputs, outputs, readOutputs, dataItems,
      listedData, data, readData, children, readChildren, rfl⟩
    exact ⟨named, path, ⟨_, listedOutputs, readOutputs⟩, ⟨_, listedData, readData⟩, readChildren⟩
  · obtain ⟨id, filePath, outputs, data, children⟩ := node
    rintro ⟨named, path, ⟨_, listedOutputs, readOutputs⟩, ⟨_, listedData, readData⟩, readChildren⟩
    exact ⟨_, named, _, path, _, listedOutputs, _, readOutputs, _, listedData, _, readData, _,
      readChildren, rfl⟩

/-- Which node a value describes does not depend on the place that faults would name. -/
theorem ofJson_congr (place other : String) {value : Json} {node : Node} :
    ofJson place value = .ok node ↔ ofJson other value = .ok node := by
  cases value with
  | object fields => rw [ofJson_object_eq_ok_iff, ofJson_object_eq_ok_iff]
  | _ => exact ⟨nofun, nofun⟩

/-- Numbered nodes are read like nodes that all stand in one place. -/
theorem mapM_zipIdx_eq_ok_iff (placeOf : Nat → String) (place : String) (items : List Json)
    (nodes : List Node) :
    (items.zipIdx.mapM fun (item, number) => ofJson (placeOf number) item) = .ok nodes ↔
      allOfJson place items = .ok nodes := by
  rw [allOfJson_eq_mapM]
  refine Iff.trans ?_ mapM_eq_ok_iff.symm
  refine Traceability.mapM_zipIdx_eq_ok_iff (fun item number node => ?_) items 0 nodes
  exact ofJson_congr (placeOf number) place

/-! ### What is read -/

mutual

/-- A node that is read lists its constructs by kind, and so does every node below it. -/
theorem listsByKind_of_ofJson (place : String) : ∀ (value : Json) (node : Node),
    ofJson place value = .ok node → ∀ inner ∈ node.walk, inner.ListsByKind
  | .object fields, ⟨id, filePath, outputs, data, children⟩, read => by
      obtain ⟨-, -, readOutputs, readData, readChildren⟩ := ofJson_object_eq_ok_iff.1 read
      obtain ⟨_, -, readOutputs⟩ := bind_eq_ok_iff.1 readOutputs
      obtain ⟨_, -, readData⟩ := bind_eq_ok_iff.1 readData
      rw [walk, List.forall_mem_cons]
      constructor
      · exact ⟨Construct.kind_of_mapM_ofJson readOutputs, Construct.kind_of_mapM_ofJson readData⟩
      · exact listsByKind_of_childrenOfJson _ fields children readChildren
  | .null, _, read | .bool _, _, read | .int _, _, read | .real _, _, read | .string _, _, read
  | .array _, _, read => nomatch read

theorem listsByKind_of_childrenOfJson (place : String) :
    ∀ (fields : List (String × Json)) (nodes : List Node),
      childrenOfJson place fields = .ok nodes → ∀ inner ∈ walkAll nodes, inner.ListsByKind
  | [], nodes, read => by
      cases read
      simp [walkAll]
  | (name, .array items) :: rest, nodes, read => by
      rw [childrenOfJson] at read
      split at read
      · exact listsByKind_of_allOfJson place items nodes read
      · exact listsByKind_of_childrenOfJson place rest nodes read
  | (name, .null) :: rest, nodes, read | (name, .bool _) :: rest, nodes, read
  | (name, .int _) :: rest, nodes, read | (name, .real _) :: rest, nodes, read
  | (name, .string _) :: rest, nodes, read | (name, .object _) :: rest, nodes, read => by
      simp only [childrenOfJson] at read
      split at read
      · -- Only a value that stands for the empty list is accepted in the place of an array.
        split at read <;> cases read
        simp [walkAll]
      · exact listsByKind_of_childrenOfJson place rest nodes read

theorem listsByKind_of_allOfJson (place : String) : ∀ (items : List Json) (nodes : List Node),
    allOfJson place items = .ok nodes → ∀ inner ∈ walkAll nodes, inner.ListsByKind
  | [], nodes, read => by
      cases read
      simp [walkAll]
  | item :: rest, nodes, read => by
      obtain ⟨first, readFirst, read⟩ := bind_eq_ok_iff.1 read
      obtain ⟨others, readOthers, read⟩ := bind_eq_ok_iff.1 read
      cases read
      rw [walkAll, List.forall_mem_append]
      exact ⟨listsByKind_of_ofJson place item first readFirst,
        listsByKind_of_allOfJson place rest others readOthers⟩

end

/-! ### What is written -/

mutual

/-- A node that lists its constructs by kind, with all the nodes below it, is read back. -/
theorem ofJson_toJson (place : String) : ∀ node : Node,
    (∀ inner ∈ node.walk, inner.ListsByKind) → ofJson place (toJson node) = .ok node
  | ⟨id, filePath, outputs, data, children⟩, fit => by
      rw [walk, List.forall_mem_cons] at fit
      obtain ⟨here, below⟩ := fit
      rw [toJson, ofJson_object_eq_ok_iff]
      refine ⟨rfl, rfl, ?_, ?_, ?_⟩
      · exact Construct.mapM_ofJson_toJson here.outputs
      · exact Construct.mapM_ofJson_toJson here.data
      · exact allOfJson_allToJson _ children below

theorem allOfJson_allToJson (place : String) : ∀ nodes : List Node,
    (∀ inner ∈ walkAll nodes, inner.ListsByKind) → allOfJson place (allToJson nodes) = .ok nodes
  | [], _ => rfl
  | node :: rest, fit => by
      rw [walkAll, List.forall_mem_append] at fit
      rw [allToJson, allOfJson, ofJson_toJson place node fit.1]
      have others := allOfJson_allToJson place rest fit.2
      exact bind_eq_ok_iff.2 ⟨node, rfl, bind_eq_ok_iff.2 ⟨rest, others, rfl⟩⟩

end

end Node

/-! ## Snapshots -/

namespace Snapshot

/-- Every node of the snapshot, at every level, lists its constructs by kind. -/
def ListsByKind (snapshot : Snapshot) : Prop := ∀ node ∈ snapshot.allNodes, node.ListsByKind

/-- The snapshot that a document describes; the place is any. -/
theorem ofJson_eq_ok_iff (place : String) {document : Json} {snapshot : Snapshot} :
    ofJson document = .ok snapshot ↔
      ∃ fields items, document = .object fields ∧
        (Json.field? fields "nodes").getD (.array []) = .array items ∧
        Node.allOfJson place items = .ok snapshot.nodes := by
  obtain ⟨nodes⟩ := snapshot
  cases document with
  | object fields =>
      unfold ofJson
      cases given : (Json.field? fields "nodes").getD (.array []) with
      | array items =>
          have numbered := Node.mapM_zipIdx_eq_ok_iff (fun number => s!"node #{number + 1}") place
            items nodes
          simp [given, bind_eq_ok_iff, pure, Except.pure, ← numbered]
      | _ => simp [given, throw_eq_ok_iff]
  | _ => simp [ofJson, throw_eq_ok_iff]

theorem listsByKind_of_ofJson {document : Json} {snapshot : Snapshot}
    (read : ofJson document = .ok snapshot) : snapshot.ListsByKind := by
  obtain ⟨fields, items, -, -, read⟩ := (ofJson_eq_ok_iff "snapshot").1 read
  exact Node.listsByKind_of_allOfJson "snapshot" items snapshot.nodes read

/-- **A snapshot comes back exactly when its constructs are listed by kind.** -/
theorem ofJson_toJson_iff (snapshot : Snapshot) :
    ofJson snapshot.toJson = .ok snapshot ↔ snapshot.ListsByKind := by
  constructor
  · exact listsByKind_of_ofJson
  · intro fit
    rw [ofJson_eq_ok_iff "snapshot"]
    exact ⟨_, _, rfl, rfl, Node.allOfJson_allToJson "snapshot" snapshot.nodes fit⟩

end Snapshot

theorem SourceParser.listsByKind_parse (parser : SourceParser) (content : Text) (path : String) :
    ∀ inner ∈ (parser.parse content path).walk, inner.ListsByKind := by
  intro inner member
  simp only [parse, Node.walk, Node.walkAll, List.mem_singleton] at member
  subst member
  constructor <;> simp

/-- **Reading undoes writing, at every depth**: exactly the snapshots that list their constructs by
kind come back.  Every snapshot that is read from a document is one of them, so that writing it and
reading it again changes nothing, and every node that the built-in parser gives fits into one. -/
theorem Snapshot.roundTrip :
    (∀ snapshot : Snapshot, ofJson snapshot.toJson = .ok snapshot ↔ snapshot.ListsByKind) ∧
      (∀ (document : Json) (snapshot : Snapshot), ofJson document = .ok snapshot →
        snapshot.ListsByKind ∧ ofJson snapshot.toJson = .ok snapshot) ∧
      ∀ (parser : SourceParser) (content : Text) (path : String),
        ∀ inner ∈ (parser.parse content path).walk, inner.ListsByKind := by
  refine ⟨ofJson_toJson_iff, ?_, SourceParser.listsByKind_parse⟩
  intro document snapshot read
  have fit := listsByKind_of_ofJson read
  exact ⟨fit, (ofJson_toJson_iff snapshot).2 fit⟩

/-- A document that leaves a file path out, has null for a list, and names a fingerprint in the
other way. -/
def sparseSnapshot : Json :=
  .object [("nodes", .array [.object [("id", .string "a.py"), ("outputs", .null),
    ("data", .array [.object [("name", .string "C"), ("fingerprint", .string "f")]]),
    ("children", .array [.object [("id", .string "b"), ("filePath", .string "c.py"),
      ("outputs", .array [.object [("name", .string "g")]])]])]])]

theorem Snapshot.roundTrip_sparse :
    ∃ snapshot : Snapshot, ofJson sparseSnapshot = .ok snapshot ∧
      snapshot.allNodes.map (·.filePath) = ["a.py", "c.py"] ∧
      snapshot.ListsByKind ∧ ofJson snapshot.toJson = .ok snapshot := by
  have read : ofJson sparseSnapshot = .ok ⟨[⟨"a.py", "a.py", [], [⟨"C", .data, some "f"⟩],
      [⟨"b", "c.py", [⟨"g", .callable, none⟩], [], []⟩]⟩]⟩ := rfl
  exact ⟨_, read, rfl, roundTrip.2.1 _ _ read⟩

end Traceability
