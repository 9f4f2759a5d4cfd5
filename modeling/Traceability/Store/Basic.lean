/-
# Traceability.Store.Basic -- links between requirements and code

A store holds the links of a workspace.  A link ties requirement identifiers,
its sources, to places in the code, its targets, and carries the status that
the last validation gave it.  Fields of a record that are not understood are
kept as `extras`.
-/
import Traceability.Json.Basic

namespace Traceability

set_option autoImplicit false

/-- The state of a link after a validation. -/
inductive LinkStatus where
  | valid
  | broken
  | orphan
deriving DecidableEq, Repr

namespace LinkStatus

/-- The word for a status in documents. -/
def word : LinkStatus → String
  | .valid => "VALID"
  | .broken => "BROKEN"
  | .orphan => "ORPHAN"

def all : List LinkStatus := [.valid, .broken, .orphan]

end LinkStatus

/-- The intended number of sources and targets of a link; it is not enforced. -/
inductive Cardinality where
  | oneToOne
  | oneToMany
  | manyToOne
  | manyToMany
deriving DecidableEq, Repr

namespace Cardinality

/-- The word for a cardinality in documents. -/
def word : Cardinality → String
  | .oneToOne => "1:1"
  | .oneToMany => "1:N"
  | .manyToOne => "N:1"
  | .manyToMany => "N:M"

def all : List Cardinality := [.oneToOne, .oneToMany, .manyToOne, .manyToMany]

end Cardinality

/-- The language of a target, which decides how a comment is written there. -/
inductive Language where
  | rust
  | cpp
  | c
  | python
  | typescript
  | javascript
  | go
  | java
  | ruby
  | shell
deriving DecidableEq, Repr

namespace Language

/-- The word for a language in documents. -/
def word : Language → String
  | .rust => "rust"
  | .cpp => "cpp"
  | .c => "c"
  | .python => "python"
  | .typescript => "typescript"
  | .javascript => "javascript"
  | .go => "go"
  | .java => "java"
  | .ruby => "ruby"
  | .shell => "shell"

def all : List Language :=
  [.rust, .cpp, .c, .python, .typescript, .javascript, .go, .java, .ruby, .shell]

def ofWord? (word : String) : Option Language := all.find? (·.word == word)

def commentMark : Language → String
  | .python | .ruby | .shell => "#"
  | _ => "//"

end Language

/-- A place in the code that a link points at. -/
structure Target where
  /-- The file, absolute or relative to the workspace. -/
  filePath : String
  language : Language
  /-- What some line of the file must contain. -/
  expectedTag : String
  /-- The construct within the file; without one the file as a whole is tracked. -/
  constructName : Option String
  /-- The construct's fingerprint when the link was made. -/
  expectedFingerprint : Option String
  extras : Json.Fields

/-- The construct a target names, when it names one. -/
def Target.construct? (target : Target) : Option String := target.constructName.filter (· != "")

def Target.describe (target : Target) : String :=
  match target.construct? with
  | some name => s!"{target.filePath}::{name}"
  | none => target.filePath

/-- A link between requirement identifiers and places in the code. -/
structure Link where
  matrixId : String
  cardinality : Cardinality
  sources : List String
  targets : List Target
  status : LinkStatus
  /-- When the link was last validated. -/
  lastVerified : Option String
  extras : Json.Fields

/-- Requirement identifiers and tags that no link covers. -/
structure Orphans where
  unlinkedSources : List String
  unlinkedTags : List String
  extras : Json.Fields

/-- The links of a workspace. -/
structure Store where
  version : String
  links : List Link
  orphans : Orphans
  extras : Json.Fields

namespace Store

/-- The version written into a store that does not say one. -/
def currentVersion : String := "1.0"

def empty : Store := ⟨currentVersion, [], ⟨[], [], []⟩, []⟩

/-- The links that have an identifier among their sources. -/
def linksForSource (store : Store) (source : String) : List Link :=
  store.links.filter (·.sources.contains source)

/-- Every target with its link, in order. -/
def targets (store : Store) : List (Link × Target) :=
  store.links.flatMap fun link => link.targets.map fun target => (link, target)

end Store

end Traceability
