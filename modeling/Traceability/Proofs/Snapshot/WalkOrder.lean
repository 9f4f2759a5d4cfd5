/-
# Traceability.Proofs.Snapshot.WalkOrder -- the search of a tree stops at the first node of its walk

Going down a tree, the search tries each node and returns from the first one that
lists the name.  That is one search through the list of nodes that the walk makes
(`findConstruct?_eq_findSome?`), so it stops at the first node in that list that
declares the name.  From that node it takes the first type of the name, or the
first callable if no type has it (`IsPreferred`).

A node's own lookup prefers callables.  It can find another construct than the
search, but it finds one on the same nodes (`preferred?_eq_none_iff`).  A name it
finds is therefore found on that node by the search, whatever is below the node.
-/
import Traceability.Proofs.Snapshot.Search

namespace Traceability

set_option autoImplicit false

/-- The first of some constructs to have a name. -/
def Construct.IsFirstNamed (constructs : List Construct) (name : String)
    (construct : Construct) : Prop :=
  construct.name = name ∧ ∃ before after, constructs = before ++ construct :: after ∧
    ∀ other ∈ before, other.name ≠ name

theorem Construct.named?_eq_some_iff {constructs : List Construct} {name : String}
    {construct : Construct} :
    Construct.named? constructs name = some construct ↔
      Construct.IsFirstNamed constructs name construct := by
  simp only [Construct.named?, Construct.IsFirstNamed, List.find?_eq_some_iff_append, beq_iff_eq,
    Bool.not_eq_true', beq_eq_false_iff_ne, ne_eq]

namespace Node

/-- What the search takes from a node: the first type of the name or, if no type has it, the first
callable of the name. -/
def IsPreferred (node : Node) (name : String) (construct : Construct) : Prop :=
  Construct.IsFirstNamed node.data name construct ∨
    (∀ type ∈ node.data, type.name ≠ name) ∧ Construct.IsFirstNamed node.outputs name construct

/-- A construct declared on the node itself, types first. -/
def preferred? (name : String) (node : Node) : Option Construct :=
  (Construct.named? node.data name).or (Construct.named? node.outputs name)

variable {node : Node} {name : String}

theorem preferred?_eq_some_iff {construct : Construct} :
    node.preferred? name = some construct ↔ node.IsPreferred name construct := by
  simp only [preferred?, IsPreferred, Option.or_eq_some_iff, Construct.named?_eq_some_iff,
    Construct.named?_eq_none_iff, not_exists, not_and, ne_eq]

/-- Types first or callables first, the name is found on the same nodes. -/
theorem preferred?_eq_none_iff : node.preferred? name = none ↔ node.ownConstruct? name = none := by
  rw [preferred?, ownConstruct?, Option.or_eq_none_iff, Option.or_eq_none_iff, and_comm]

theorem findConstruct?_eq_or (name : String) (node : Node) :
    node.findConstruct? name = (node.preferred? name).or (findInAll? name node.children) := by
  obtain ⟨id, filePath, outputs, data, children⟩ := node
  rw [findConstruct?, preferred?]

theorem walk_eq_cons (node : Node) : node.walk = node :: walkAll node.children := by
  obtain ⟨id, filePath, outputs, data, children⟩ := node
  rw [walk]

/-! ## Searching the walk -/

mutual

theorem findConstruct?_eq_findSome? (name : String) : ∀ node : Node,
    findConstruct? name node = (walk node).findSome? (preferred? name)
  | ⟨id, filePath, outputs, data, children⟩ => by
      rw [findConstruct?_eq_or, findInAll?_eq_findSome? name children, walk_eq_cons,
        List.findSome?_cons]
      cases preferred? name ⟨id, filePath, outputs, data, children⟩ with
      | none => rw [Option.none_or]
      | some construct => rw [Option.some_or]

/-- The nodes of earlier trees come first in the walk, all of them. -/
theorem findInAll?_eq_findSome? (name : String) : ∀ nodes : List Node,
    findInAll? name nodes = (walkAll nodes).findSome? (preferred? name)
  | [] => by rw [findInAll?, walkAll, List.findSome?_nil]
  | node :: rest => by
      rw [findInAll?, findConstruct?_eq_findSome? name node, findInAll?_eq_findSome? name rest,
        walkAll, List.findSome?_append]

end

/-- The search has found a construct exactly if it is the preferred one of a node of the walk, and no
node in front of that one declares the name. -/
theorem findConstruct?_eq_some_iff {construct : Construct} :
    node.findConstruct? name = some construct ↔
      ∃ before declaring after, node.walk = before ++ declaring :: after ∧
        (∀ earlier ∈ before, earlier.ownConstruct? name = none) ∧
        declaring.IsPreferred name construct := by
  simp only [findConstruct?_eq_findSome?, List.findSome?_eq_some_iff, preferred?_eq_some_iff,
    preferred?_eq_none_iff, and_comm (a := IsPreferred _ _ _)]

theorem findConstruct?_eq_none_iff_own :
    node.findConstruct? name = none ↔ ∀ inner ∈ node.walk, inner.ownConstruct? name = none := by
  simp only [findConstruct?_eq_findSome?, List.findSome?_eq_none_iff, preferred?_eq_none_iff]

/-- What a node itself declares is found there, before the search goes below the node. -/
theorem findConstruct?_of_preferred {construct : Construct}
    (preferred : node.preferred? name = some construct) :
    node.findConstruct? name = some construct := by
  rw [findConstruct?_eq_or, preferred, Option.some_or]

/-- **The search finds nothing only if no node of the walk declares the name, and otherwise the
preferred construct of the first node of the walk that does.**  So a name that a node's own lookup
finds is found on that node, and not below it. -/
theorem findConstruct?_first_in_walk (node : Node) (name : String) :
    (node.findConstruct? name = none ↔
      ∀ inner ∈ node.walk, inner.ownConstruct? name = none) ∧
    (∀ construct, node.findConstruct? name = some construct ↔
      ∃ before declaring after, node.walk = before ++ declaring :: after ∧
        (∀ earlier ∈ before, earlier.ownConstruct? name = none) ∧
        declaring.IsPreferred name construct) ∧
    (node.ownConstruct? name ≠ none →
      ∃ construct, node.findConstruct? name = some construct ∧ node.IsPreferred name construct ∧
        ∀ children, findConstruct? name { node with children } = some construct) := by
  refine ⟨findConstruct?_eq_none_iff_own, fun _ => findConstruct?_eq_some_iff, fun declares => ?_⟩
  obtain ⟨construct, preferred⟩ : ∃ construct, node.preferred? name = some construct := by
    apply Option.ne_none_iff_exists'.1
    exact fun missing => declares (preferred?_eq_none_iff.1 missing)
  refine ⟨construct, findConstruct?_of_preferred preferred, preferred?_eq_some_iff.1 preferred, ?_⟩
  intro children
  exact findConstruct?_of_preferred preferred

/-- The first node declares a type and a callable of one name.  Below it, one node declares a callable
and the next one a type of another name. -/
def namesakes : Node :=
  ⟨"a.rs", "a.rs", [⟨"Token", .callable, some "f"⟩], [⟨"Token", .data, some "t"⟩],
    [⟨"a.rs#b", "a.rs#b", [⟨"helper", .callable, some "f"⟩], [], []⟩,
      ⟨"a.rs#c", "a.rs#c", [], [⟨"helper", .data, some "t"⟩], []⟩]⟩

/-- The type is found on the first node, though its own lookup would give the callable.  The callable
is found on the second node, though a type of that name follows in the walk. -/
theorem findConstruct?_first_in_walk_namesakes :
    namesakes.ownConstruct? "Token" = some ⟨"Token", .callable, some "f"⟩ ∧
      (∃ construct, namesakes.findConstruct? "Token" = some construct ∧
        namesakes.IsPreferred "Token" construct ∧
        ∀ children, findConstruct? "Token" { namesakes with children } = some construct) ∧
      namesakes.findConstruct? "helper" = some ⟨"helper", .callable, some "f"⟩ := by
  have own : namesakes.ownConstruct? "Token" = some ⟨"Token", .callable, some "f"⟩ := by decide
  have token := (findConstruct?_first_in_walk namesakes "Token").2.2 (by rw [own]; nofun)
  have helper := (findConstruct?_first_in_walk namesakes "helper").2.1
  refine ⟨own, token, (helper _).2 ⟨[_], _, [_], rfl, by decide, ?_⟩⟩
  exact preferred?_eq_some_iff.1 rfl

end Node

end Traceability
