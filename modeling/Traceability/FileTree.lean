/-
# Traceability.FileTree -- files and directories as a value

A file tree lists its files and directories with the names that lead to them
from the root, which is always there.  Paths are followed name by name: a name
must lie in a directory, and `..` goes back from one (`follow`).  A path that
goes through something that does not exist leads nowhere, whatever `..` it
contains afterwards.

Text is read with its line ends unified and written as it is.  A file that is
written is emptied first, so it keeps nothing of its text when the disk breaks off or
the new text has no octets (`write`).
-/
import Traceability.Disk
import Traceability.Json.Reader
import Traceability.Document

namespace Traceability

set_option autoImplicit false

/-- What lies at a place. -/
inductive FileEntry where
  | directory
  | file (octets : List UInt8)
deriving DecidableEq, Repr

/-- Files and directories with the names that lead to them, and the disk they lie on. -/
structure FileTree where
  entries : List (List String × FileEntry)
  disk : Disk := {}

namespace FileTree

/-- The tree that holds the root directory alone. -/
def empty (disk : Disk := {}) : FileTree := ⟨[], disk⟩

def entryAt? (tree : FileTree) (place : List String) : Option FileEntry :=
  if place.isEmpty then some .directory else tree.entries.lookup place

def isDirectoryAt (tree : FileTree) (place : List String) : Bool :=
  tree.entryAt? place = some .directory

/-- The place to which names lead from another place. -/
def follow (tree : FileTree) : (place names : List String) → Option (List String)
  | place, [] => some place
  | place, name :: rest =>
      if !tree.isDirectoryAt place then none
      else if name = ".." then tree.follow place.dropLast rest
      else if (tree.entryAt? (place ++ [name])).isSome then tree.follow (place ++ [name]) rest
      else none

def entry? (tree : FileTree) (path : Path) : Option FileEntry :=
  (tree.follow [] path.names).bind tree.entryAt?

def has (tree : FileTree) (path : Path) : Bool := (tree.entry? path).isSome

/-- The octets of the file at a path, if there is one. -/
def octets? (tree : FileTree) (path : Path) : Option (List UInt8) :=
  match tree.entry? path with
  | some (.file octets) => some octets
  | _ => none

/-! ## Reading -/

/-- The text of a file, when its octets are UTF-8. -/
def textOf? (octets : List UInt8) : Option Text :=
  (Text.Utf8.decode? octets).map Text.unifyLineEnds

/-- The text of a file, with replacement characters where its octets are not UTF-8. -/
def lossyTextOf (octets : List UInt8) : Text := Text.unifyLineEnds (Text.Utf8.decodeLossy octets)

def readText (tree : FileTree) (path : Path) : Except ReadFault Text :=
  match tree.entry? path with
  | none => .error .missing
  | some .directory => .error .isDirectory
  | some (.file octets) =>
      match tree.disk.hides path, textOf? octets with
      | some reason, _ => .error (.refused reason)
      | none, some text => .ok text
      | none, none => .error .notUtf8

def readDocument (tree : FileTree) (path : Path) : Except ReadFault Json := do
  let text ← tree.readText path
  match Json.read? text tree.disk.halves with
  | some document => .ok document
  | none => .error .notJson

/-! ## Writing -/

/-- The tree with an entry at a place, in the place of the old one or at the end. -/
def setEntry (tree : FileTree) (place : List String) (entry : FileEntry) : FileTree :=
  if tree.entries.any (·.1 == place) then
    { tree with
      entries := tree.entries.map fun old => if old.1 == place then (place, entry) else old }
  else { tree with entries := tree.entries ++ [(place, entry)] }

/-- The tree with a file at a path whose directory exists; otherwise the tree itself. -/
def writeOctets (tree : FileTree) (path : Path) (octets : List UInt8) : FileTree :=
  match tree.follow [] path.parent.names with
  | some place => tree.setEntry (place ++ [path.name]) (.file octets)
  | none => tree

def writeText (tree : FileTree) (path : Path) (text : Text) : FileTree :=
  tree.writeOctets path (Text.Utf8.encode text)

/-- What came of writing a file. -/
structure Writing where
  tree : FileTree
  fault : Option WriteFault

/-- Writes a text to the file at a path whose directory exists. -/
def write (tree : FileTree) (path : Path) (text : Text) : Writing :=
  match tree.disk.refuses path with
  | some reason => ⟨tree, some (.refused reason)⟩
  | none =>
      match tree.disk.halves.fault? text with
      | some fault => ⟨tree.writeOctets path [], some (.notEncodable fault)⟩
      | none =>
          match tree.disk.breaksOff path (Text.Utf8.encode text) with
          | some (reason, left) => ⟨tree.writeOctets path left, some (.brokenOff reason)⟩
          | none => ⟨tree.writeText path text, none⟩

/-- The tree with the directories that names lead through from a place, up to the first one that
cannot be made: a file is in its place, or the disk refuses it. -/
def makeDirectoriesFrom (tree : FileTree) : (place names : List String) → FileTree
  | _, [] => tree
  | place, name :: rest =>
      if name = ".." then tree.makeDirectoriesFrom place.dropLast rest
      else
        let place := place ++ [name]
        match tree.entryAt? place with
        | some .directory => tree.makeDirectoriesFrom place rest
        | some (.file _) => tree
        | none =>
            if (tree.disk.refuses ⟨.root, place⟩).isSome then tree
            else (tree.setEntry place .directory).makeDirectoriesFrom place rest

/-- The tree with the directories on an absolute path. -/
def makeDirectories (tree : FileTree) (path : Path) : FileTree :=
  tree.makeDirectoriesFrom [] path.names

/-- Can a file stand at a path?  Its directory must be there, and no directory at the path itself. -/
def hasRoom (tree : FileTree) (path : Path) : Bool :=
  match path.names.getLast?, tree.follow [] path.parent.names with
  | some last, some directory =>
      last != ".." && tree.isDirectoryAt directory && !tree.isDirectoryAt (directory ++ [last])
  | _, _ => false

/-- The names of what lies in a directory. -/
def namesIn (tree : FileTree) (directory : List String) : List String :=
  tree.entries.filterMap fun entry =>
    if entry.1.dropLast = directory then entry.1.getLast? else none

/-- Where the file at a path is written before it gets its name: beside it, under a new name. -/
def draft (tree : FileTree) (path : Path) : Path :=
  let taken := tree.namesIn ((tree.follow [] path.parent.names).getD [])
  let name := tree.disk.drafts.name (String.ofList path.stem) (path.name :: taken)
  ⟨path.anchor, path.parent.names ++ [name]⟩

/-- The tree without what lies at a place and below it. -/
def remove (tree : FileTree) (place : List String) : FileTree :=
  { tree with entries := tree.entries.filter fun entry => !place.isPrefixOf entry.1 }

/-- The files below a place with the names that lead to them from there. -/
def filesBelow (tree : FileTree) (place : List String) : List (List String × List UInt8) :=
  tree.entries.filterMap fun
    | (names, .file octets) =>
        if place.isPrefixOf names then some (names.drop place.length, octets) else none
    | _ => none

end FileTree

end Traceability
