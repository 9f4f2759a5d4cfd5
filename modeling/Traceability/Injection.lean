/-
# Traceability.Injection -- putting tags into files

The tag of a target is put into its file unless the file holds it already, or
holds the text that the target expects.  A file that does not exist, cannot be read,
is not UTF-8 text or cannot be written counts as not tagged.

Two faults are not answered: that the disk does not say what lies at the path, and that
the text with the tag cannot be written in UTF-8.  They are failures of
whatever asked for the tag (`Injection.failure?`), and the second one leaves an
empty file.
-/
import Traceability.Failure
import Traceability.FileTree
import Traceability.Tag

namespace Traceability

set_option autoImplicit false

/-- What went wrong while a tag was put into a file. -/
inductive InjectionFault where
  | denied (reason : String)
  | unreadable (cause : ReadFault)
  | unwritten (fault : WriteFault)

namespace InjectionFault

/-- The failure that a fault is, if it is one. -/
def failure? : InjectionFault → Option Failure
  | .denied reason => some (.denied reason)
  | .unreadable _ => none
  | .unwritten fault => if fault.isOfDisk then none else some (.unwritten fault)

/-- Has the file lost its text? -/
def losesText : InjectionFault → Bool
  | .unwritten fault => fault.losesText
  | _ => false

end InjectionFault

/-- What came of putting a tag into a file. -/
structure Injection where
  tree : FileTree
  /-- Does the file hold the tag now? -/
  isTagged : Bool
  /-- What went wrong, apart from there being no file. -/
  fault : Option InjectionFault

namespace Injection

def failure? (injection : Injection) : Option Failure :=
  injection.fault.bind InjectionFault.failure?

def losesText (injection : Injection) : Bool := injection.fault.any InjectionFault.losesText

end Injection

/-- The text with the tag of a target, or nothing when there is no need to change it. -/
def taggedText? (target : Target) (sources : List String) (content : Text) : Option Text :=
  let tag := composeTag target.language sources target.expectedTag
  let isExpected := target.expectedTag != "" && Text.occursIn target.expectedTag.toList content
  if Text.occursIn tag content || isExpected then none
  else some (insertTag content tag target.constructName)

/-- Puts the tag of a target into the file at a path. -/
def injectTag (tree : FileTree) (path : Path) (target : Target) (sources : List String) :
    Injection :=
  match tree.disk.denies path with
  | some reason => ⟨tree, false, some (.denied reason)⟩
  | none =>
      match tree.octets? path with
      | none => ⟨tree, false, none⟩
      | some octets =>
          match tree.disk.hides path, FileTree.textOf? octets with
          | some reason, _ => ⟨tree, false, some (.unreadable (.refused reason))⟩
          | none, none => ⟨tree, false, some (.unreadable .notUtf8)⟩
          | none, some content =>
              match taggedText? target sources content with
              | none => ⟨tree, true, none⟩
              | some text =>
                  let writing := tree.write path text
                  ⟨writing.tree, writing.fault.isNone, writing.fault.map .unwritten⟩

end Traceability
