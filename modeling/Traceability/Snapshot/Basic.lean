/-
# Traceability.Snapshot.Basic -- the structure of a workspace at one time

A snapshot is a forest of nodes.  A node is a unit of source text, normally a
file, with the constructs it declares and the units nested in it.

Two searches look a construct up by name.  `ownConstruct?` stays on one node and
prefers callables; `findConstruct?` goes through the whole tree below a node and
prefers types on each.  `walk` lists the nodes in the order of that search.
-/
import Traceability.Construct

namespace Traceability

set_option autoImplicit false

/-- A unit of source text and what it declares. -/
structure Node where
  id : String
  filePath : String
  outputs : List Construct
  data : List Construct
  children : List Node
deriving Repr

namespace Node

mutual

/-- The node and everything below it, a node before its children. -/
def walk : Node → List Node
  | ⟨id, filePath, outputs, data, children⟩ => ⟨id, filePath, outputs, data, children⟩ :: walkAll children

/-- The nodes of several trees, tree by tree. -/
def walkAll : List Node → List Node
  | [] => []
  | node :: rest => walk node ++ walkAll rest

end

/-- A construct declared on the node itself, callables first. -/
def ownConstruct? (node : Node) (name : String) : Option Construct :=
  (Construct.named? node.outputs name).or (Construct.named? node.data name)

mutual

/-- A construct declared anywhere in the tree: types first on each node, then the children in
order. -/
def findConstruct? (name : String) : Node → Option Construct
  | ⟨_, _, outputs, data, children⟩ =>
      ((Construct.named? data name).or (Construct.named? outputs name)).or
        (findInAll? name children)

/-- A construct declared in the first of several trees that has one. -/
def findInAll? (name : String) : List Node → Option Construct
  | [] => none
  | node :: rest => (findConstruct? name node).or (findInAll? name rest)

end

end Node

/-- The structure of a workspace. -/
structure Snapshot where
  nodes : List Node
deriving Repr

/-- Every node of the snapshot, trees in order, a node before its children. -/
def Snapshot.allNodes (snapshot : Snapshot) : List Node := Node.walkAll snapshot.nodes

end Traceability
