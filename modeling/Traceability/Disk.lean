/-
# Traceability.Disk -- what a disk refuses

What lies where is the matter of a file tree.  Whether the disk carries out what is asked
of it is another: it may not say what lies at a path, may not open a file for
reading or for writing, and may break off while a file is written.  A `Disk` says all
this, and with what characters the halves of surrogate pairs are read, for texts that
have them cannot be written (`WriteFault`).  It also finds the names of drafts, which are
files that get their own names only when they are whole (`Drafts`).
-/
import Traceability.Json.Writer
import Traceability.Path
import Traceability.Text.Halves

namespace Traceability

set_option autoImplicit false

/-- Why a text could not be written. -/
inductive WriteFault where
  /-- The directory of the file is not there, or another directory is in the place of the file. -/
  | noRoom
  /-- The disk does not open the file. -/
  | refused (reason : String)
  /-- The disk breaks off. -/
  | brokenOff (reason : String)
  /-- The text has no octets. -/
  | notEncodable (fault : Text.HalfFault)
deriving DecidableEq, Repr

namespace WriteFault

/-- The reason in words. -/
def message : WriteFault → String
  | .noRoom => "there is no room for the file"
  | .refused reason => reason
  | .brokenOff reason => reason
  | .notEncodable fault => fault.message

/-- Does a file that was being overwritten lose its text?  It is emptied when it is opened. -/
def losesText : WriteFault → Bool
  | .noRoom | .refused _ => false
  | .brokenOff _ | .notEncodable _ => true

/-- Is it the disk that fails, and not the text? -/
def isOfDisk : WriteFault → Bool
  | .notEncodable _ => false
  | _ => true

end WriteFault

/-! ## Drafts -/

/-- The name of a draft. -/
def draftName (stem letters : String) : String := stem ++ "." ++ letters ++ ".tmp"

/-- How letters are found that make the name of a draft a new one. -/
structure Drafts where
  letters : (stem : String) → (taken : List String) → String
  isNew : ∀ stem taken, draftName stem (letters stem taken) ∉ taken

namespace Drafts

def name (drafts : Drafts) (stem : String) (taken : List String) : String :=
  draftName stem (drafts.letters stem taken)

/-- The length of the longest name. -/
def longest (names : List String) : Nat := names.foldr (fun name most => max name.length most) 0

theorem length_le_longest {name : String} {names : List String} (member : name ∈ names) :
    name.length ≤ longest names := by
  induction names with
  | nil => cases member
  | cons other rest ih =>
      rw [longest, List.foldr_cons, ← longest]
      rcases List.mem_cons.1 member with rfl | later
      · exact Nat.le_max_left _ _
      · exact Nat.le_trans (ih later) (Nat.le_max_right _ _)

/-- With as many letters as the longest name has, a name is longer than each of them. -/
def outgrowing : Drafts where
  letters _ taken := String.ofList (List.replicate (longest taken) 'x')
  isNew stem taken member := by
    have short := length_le_longest member
    have dot : ".".length = 1 := rfl
    simp only [draftName, String.length_append, String.length_ofList, List.length_replicate,
      dot] at short
    omega

end Drafts

/-! ## What a disk does -/

/-- What a disk does with what is asked of it. -/
structure Disk where
  /-- Why the disk does not say what lies at a path. -/
  denies : Path → Option String := fun _ => none
  /-- Why the disk does not open the file at a path for reading. -/
  hides : Path → Option String := fun _ => none
  /-- Why the disk does not open the file at a path for writing, or make a directory there. -/
  refuses : Path → Option String := fun _ => none
  /-- Why the disk breaks off while octets are written to the file at a path, and what the file
  holds then. -/
  breaksOff : Path → List UInt8 → Option (String × List UInt8) := fun _ _ => none
  /-- The characters for the halves of surrogate pairs. -/
  halves : Text.Halves := {}
  drafts : Drafts := .outgrowing

/-- A disk that denies nothing but paths that are too long, or have a name that is. -/
def Disk.limited (halves : Text.Halves) : Disk where
  denies path :=
    if path.toString.utf8ByteSize > 4095 || path.names.any (·.utf8ByteSize > 255) then
      some ("[Errno 36] File name too long: " ++ String.ofList (Text.quoted path.toString.toList))
    else none
  halves

end Traceability
