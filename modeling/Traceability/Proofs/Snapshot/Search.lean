/-
# Traceability.Proofs.Snapshot.Search -- what the search of a tree finds

`Node.Declares` says that some node of a tree lists a construct of a name.  The
search through the tree finds one exactly then (`findConstruct?_ne_none_iff`).

On a node without children the search and the node's own lookup differ only in
what they prefer, so they agree when no name is both a callable's and a type's
(`ownConstruct?_eq_findConstruct?`).
-/
import Traceability.Snapshot.Basic

namespace Traceability

set_option autoImplicit false

theorem Construct.named?_eq_none_iff (constructs : List Construct) (name : String) :
    Construct.named? constructs name = none ↔
      ¬∃ construct ∈ constructs, construct.name = name := by
  simp only [Construct.named?, List.find?_eq_none, beq_iff_eq, not_exists, not_and]

theorem Construct.named?_eq_some {constructs : List Construct} {name : String}
    {construct : Construct} (found : Construct.named? constructs name = some construct) :
    construct ∈ constructs ∧ construct.name = name := by
  have named := List.find?_some found
  exact ⟨List.mem_of_find?_eq_some found, beq_iff_eq.1 named⟩

namespace Node

/-- The node itself lists a construct of the name. -/
def Lists (node : Node) (name : String) : Prop :=
  ∃ construct ∈ node.data ++ node.outputs, construct.name = name

/-- Some node of the tree lists a construct of the name. -/
def Declares (node : Node) (name : String) : Prop := ∃ inner ∈ node.walk, inner.Lists name

theorem own_eq_none_iff (node : Node) (name : String) :
    (Construct.named? node.data name).or (Construct.named? node.outputs name) = none ↔
      ¬node.Lists name := by
  rw [Option.or_eq_none_iff, Construct.named?_eq_none_iff, Construct.named?_eq_none_iff, Lists]
  simp only [List.mem_append, or_and_right, exists_or, not_or]

mutual

theorem findConstruct?_eq_none_iff (name : String) : ∀ node : Node,
    findConstruct? name node = none ↔ ∀ inner ∈ walk node, ¬inner.Lists name
  | ⟨id, filePath, outputs, data, children⟩ => by
      have own := own_eq_none_iff ⟨id, filePath, outputs, data, children⟩ name
      rw [findConstruct?, Option.or_eq_none_iff, own, findInAll?_eq_none_iff name children, walk,
        List.forall_mem_cons]

theorem findInAll?_eq_none_iff (name : String) : ∀ nodes : List Node,
    findInAll? name nodes = none ↔ ∀ inner ∈ walkAll nodes, ¬inner.Lists name
  | [] => by simp only [findInAll?, walkAll, List.not_mem_nil, false_implies, implies_true]
  | node :: rest => by
      rw [findInAll?, Option.or_eq_none_iff, findConstruct?_eq_none_iff name node,
        findInAll?_eq_none_iff name rest, walkAll, List.forall_mem_append]

end

theorem findConstruct?_ne_none_iff (name : String) (node : Node) :
    findConstruct? name node ≠ none ↔ node.Declares name := by
  rw [ne_eq, findConstruct?_eq_none_iff, Declares]
  constructor
  · intro found
    exact Classical.byContradiction fun missing =>
      found fun inner among listed => missing ⟨inner, among, listed⟩
  · rintro ⟨inner, among, listed⟩ none_lists
    exact none_lists inner among listed

/-! ## Nodes without children -/

/-- No callable of the node has the name of a type. -/
def NamesApart (node : Node) : Prop :=
  ∀ callable ∈ node.outputs, ∀ type ∈ node.data, callable.name ≠ type.name

instance (node : Node) : Decidable node.NamesApart :=
  inferInstanceAs (Decidable (∀ callable ∈ node.outputs, ∀ type ∈ node.data, _))

variable {node : Node}

theorem findConstruct?_of_leaf (leaf : node.children = []) (name : String) :
    node.findConstruct? name =
      (Construct.named? node.data name).or (Construct.named? node.outputs name) := by
  obtain ⟨id, filePath, outputs, data, children⟩ := node
  cases leaf
  rw [findConstruct?, findInAll?, Option.or_none]

theorem ownConstruct?_eq_findConstruct? (leaf : node.children = []) (apart : node.NamesApart)
    (name : String) : node.ownConstruct? name = node.findConstruct? name := by
  rw [ownConstruct?, findConstruct?_of_leaf leaf]
  cases callable : Construct.named? node.outputs name with
  | none => rw [Option.none_or, Option.or_none]
  | some output =>
      cases type : Construct.named? node.data name with
      | none => rfl
      | some datum =>
          have same : output.name = datum.name :=
            (Construct.named?_eq_some callable).2.trans (Construct.named?_eq_some type).2.symm
          exact absurd same (apart output (Construct.named?_eq_some callable).1 datum
            (Construct.named?_eq_some type).1)

theorem walk_of_leaf (leaf : node.children = []) : node.walk = [node] := by
  obtain ⟨id, filePath, outputs, data, children⟩ := node
  cases leaf
  rw [walk, walkAll]

/-- A forest of nodes without children is its own walk. -/
theorem walkAll_of_leaves {nodes : List Node} (leaves : ∀ node ∈ nodes, node.children = []) :
    walkAll nodes = nodes := by
  induction nodes with
  | nil => rw [walkAll]
  | cons node rest ih =>
      obtain ⟨here, later⟩ := List.forall_mem_cons.1 leaves
      rw [walkAll, walk_of_leaf here, ih later, List.singleton_append]

end Node

end Traceability
