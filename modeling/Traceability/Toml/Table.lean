/-
# Traceability.Toml.Table -- tables of a configuration text

A configuration text builds its tables piece by piece: headers open tables and
elements of arrays of tables, and keys with several parts make tables on the
way.  What may still be added to a table depends on how it came about, so a
`Section` remembers that until the text is read.

A table may be opened by a header once; a table that only stood on the way to
another one may be opened later.  Arrays and tables written as values are
closed.  The last element of an array of tables can be extended only by headers
that follow its own without a gap.
-/
import Traceability.Json.Basic

namespace Traceability.Toml

set_option autoImplicit false

/-- How a table came about. -/
inductive Origin where
  /-- A header has opened it. -/
  | header
  /-- It stands on the way to a table that a header has opened. -/
  | onTheWay
  /-- It stands on the way to a value with a key of several parts. -/
  | dotted
deriving DecidableEq, Repr

/-- What a name means while the text is being read. -/
inductive Section where
  | value (value : Json)
  | table (origin : Origin) (entries : List (String × Section))
  | tables (elements : List (List (String × Section)))

/-- The names of a table with their meanings. -/
abbrev Entries := List (String × Section)

/-- The entries with a new meaning for a name, in the place of the old one or at the end. -/
def put (entries : Entries) (name : String) (meaning : Section) : Entries :=
  match entries with
  | [] => [(name, meaning)]
  | (other, old) :: rest =>
      if other == name then (name, meaning) :: rest else (other, old) :: put rest name meaning

/-- A list with its last element changed; an empty list cannot be changed. -/
def changeLast {α : Type} (change : α → Option α) : List α → Option (List α)
  | [] => none
  | [last] => (change last).map ([·])
  | first :: rest => (changeLast change rest).map (first :: ·)

/-- The entries after a header that opens a table, or an element of an array of tables.  `path` is
the way so far and `previous` the key of the header before. -/
def openTable (isElement : Bool) (previous : List String) :
    (path key : List String) → Entries → Option Entries
  | _, [], _ => none
  | _, [name], entries =>
      match entries.lookup name with
      | none => some (put entries name (if isElement then .tables [[]] else .table .header []))
      | some (.table .onTheWay inner) =>
          if isElement then none else some (put entries name (.table .header inner))
      | some (.tables elements) =>
          if isElement then some (put entries name (.tables (elements ++ [[]]))) else none
      | some _ => none
  | path, name :: rest, entries =>
      let path := path ++ [name]
      match entries.lookup name with
      | none => do
          let inner ← openTable isElement previous path rest []
          some (put entries name (.table .onTheWay inner))
      | some (.table origin inner) => do
          let inner ← openTable isElement previous path rest inner
          some (put entries name (.table origin inner))
      | some (.tables elements) =>
          if path.isPrefixOf previous then do
            let elements ← changeLast (openTable isElement previous path rest) elements
            some (put entries name (.tables elements))
          else none
      | some (.value _) => none

/-- The entries after a value has been given to a key; tables are made on the way. -/
def assign (key : List String) (value : Json) (entries : Entries) : Option Entries :=
  match key with
  | [] => none
  | [name] =>
      match entries.lookup name with
      | none => some (put entries name (.value value))
      | some _ => none
  | name :: rest =>
      match entries.lookup name with
      | none => do
          let inner ← assign rest value []
          some (put entries name (.table .dotted inner))
      | some (.table origin inner) => do
          let inner ← assign rest value inner
          some (put entries name (.table origin inner))
      | some _ => none

/-- The entries after a value has been given to a key inside the table that a header opened. -/
def assignIn (key : List String) (value : Json) : (header : List String) → Entries → Option Entries
  | [], entries => assign key value entries
  | name :: rest, entries =>
      match entries.lookup name with
      | some (.table origin inner) => do
          let inner ← assignIn key value rest inner
          some (put entries name (.table origin inner))
      | some (.tables elements) => do
          let elements ← changeLast (assignIn key value rest) elements
          some (put entries name (.tables elements))
      | _ => none

mutual

def Section.toJson : Section → Json
  | .value value => value
  | .table _ entries => .object (fieldsOf entries)
  | .tables elements => .array (objectsOf elements)

def fieldsOf : List (String × Section) → Json.Fields
  | [] => []
  | (name, meaning) :: rest => (name, meaning.toJson) :: fieldsOf rest

/-- The elements of an array of tables once the text is read. -/
def objectsOf : List (List (String × Section)) → List Json
  | [] => []
  | entries :: rest => .object (fieldsOf entries) :: objectsOf rest

end

/-- One statement of a configuration text. -/
inductive Statement where
  | header (isElement : Bool) (key : List String)
  | entry (key : List String) (value : Json)

/-- A text in the course of being read: the tables, and the key of the last header. -/
structure Builder where
  entries : Entries
  current : List String

/-- The tables after one more statement. -/
def Builder.step (builder : Builder) : Statement → Option Builder
  | .header isElement key => do
      let entries ← openTable isElement builder.current [] key builder.entries
      some ⟨entries, key⟩
  | .entry key value => do
      let entries ← assignIn key value builder.current builder.entries
      some ⟨entries, builder.current⟩

def fieldsOfStatements (statements : List Statement) : Option Json.Fields := do
  let builder ← statements.foldlM Builder.step ⟨[], []⟩
  some (fieldsOf builder.entries)

end Traceability.Toml
