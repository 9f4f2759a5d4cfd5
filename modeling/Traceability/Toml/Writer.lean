/-
# Traceability.Toml.Writer -- the starter configuration as a text

Comments at the top, and then the sections, each after an empty line: its header, its
comment, and a line for every key.
-/
import Traceability.Config.Starter

namespace Traceability.Toml

set_option autoImplicit false

open Config

/-- A comment on a line of its own, or after something. -/
def commentText (comment : String) : String := "# " ++ comment

def valueText : Json → String
  | .bool b => if b then "true" else "false"
  | .int n => toString n
  | .string s => "\"" ++ s ++ "\""
  | _ => ""

def keyLine (key : StarterKey) : String :=
  key.key ++ " = " ++ valueText key.value ++
    (key.comment.map fun comment => " " ++ commentText comment).getD ""

/-- The lines of a section, of which the first is empty. -/
def sectionLines (part : StarterSection) : List String :=
  ["", "[" ++ part.name ++ "]"] ++ (part.comment.map commentText).toList ++ part.keys.map keyLine

def render (document : StarterDocument) : Text :=
  let lines := document.head.map commentText ++ document.sections.flatMap sectionLines
  lines.flatMap fun line => line.toList ++ ['\n']

end Traceability.Toml
