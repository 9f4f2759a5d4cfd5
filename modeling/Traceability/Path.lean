/-
# Traceability.Path -- file paths as lists of names

A `Path` is an anchor and a list of names.  Reading a path drops empty names
and `.`, so that `a//b`, `a/./b` and `a/b/` are all the path of `a` and `b`;
`..` stays, because what it means depends on the directory before it.  Two
leading slashes are an anchor of their own, one slash or more than two are the
ordinary root.

`normalize` takes `..` against the name before it; two spellings name the same
place when their normal forms agree.
-/
import Traceability.Text.Basic

namespace Traceability

set_option autoImplicit false

/-- Where a path starts. -/
inductive Anchor where
  | relative
  | root
  | doubleRoot
deriving DecidableEq, Repr

/-- A path: where it starts and the names it goes through. -/
structure Path where
  anchor : Anchor
  names : List String
deriving DecidableEq, Repr

namespace Path

/-- The anchor that the slashes at the beginning of a text mean. -/
def anchorOf (text : Text) : Anchor :=
  match (text.takeWhile (· == '/')).length with
  | 0 => .relative
  | 2 => .doubleRoot
  | _ => .root

/-- A name that a path keeps: neither empty nor the directory itself. -/
def isKept (name : String) : Bool := name != "" && name != "."

def ofString (spelling : String) : Path :=
  let text := spelling.toList
  ⟨anchorOf text, ((Text.split '/' text).map String.ofList).filter isKept⟩

def Anchor.spelling : Anchor → String
  | .relative => ""
  | .root => "/"
  | .doubleRoot => "//"

/-- The usual spelling of a path; the empty relative path is `.`. -/
def toString (path : Path) : String :=
  match path.anchor, path.names with
  | .relative, [] => "."
  | anchor, names => Anchor.spelling anchor ++ "/".intercalate names

instance : ToString Path := ⟨toString⟩

def isAbsolute (path : Path) : Bool := path.anchor != .relative

/-- The path `other` seen from `base`: an absolute path stays as it is. -/
def join (base other : Path) : Path :=
  if other.isAbsolute then other else ⟨base.anchor, base.names ++ other.names⟩

/-- The directory a path lies in; a path without names is its own parent. -/
def parent (path : Path) : Path := ⟨path.anchor, path.names.dropLast⟩

/-- The last name, or nothing. -/
def name (path : Path) : String := path.names.getLast?.getD ""

/-- The last name cut before its last dot.  A name has no ending when its only dot comes first or
its last dot comes last. -/
def nameParts (path : Path) : Text × Text :=
  let text := path.name.toList
  let ending := (text.reverse.takeWhile (· != '.')).reverse
  let size := text.length - ending.length
  if ending.isEmpty || size ≤ 1 then (text, []) else (text.take (size - 1), text.drop (size - 1))

/-- The ending of the last name with its dot, such as `.rs`. -/
def ending (path : Path) : Text := path.nameParts.2

def stem (path : Path) : Text := path.nameParts.1

/-- One name added to the names so far, latest first, with `..` taken against the name before
it.  Above the root there is nothing; above the start of a relative path `..` stays. -/
def pushName (absolute : Bool) (before : List String) (name : String) : List String :=
  if name = ".." then
    match before with
    | [] => if absolute then [] else [".."]
    | last :: earlier => if last = ".." then ".." :: before else earlier
  else name :: before

/-- The path with every `..` taken against the name before it. -/
def normalize (path : Path) : Path :=
  ⟨path.anchor, (path.names.foldl (pushName path.isAbsolute) []).reverse⟩

/-- The names from the root for a path seen from an absolute directory, without `..`. -/
def resolve (directory path : Path) : Path := ⟨.root, (directory.join path).normalize.names⟩

/-- The path and the directories above it, nearest first. -/
def ancestors (path : Path) : List Path :=
  ((List.range (path.names.length + 1)).map fun n => ⟨path.anchor, path.names.take n⟩).reverse

end Path

end Traceability
