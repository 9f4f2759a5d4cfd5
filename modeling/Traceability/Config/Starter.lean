/-
# Traceability.Config.Starter -- a configuration file to start from

The starter file spells out the built-in configuration, section by section, with
a comment wherever the meaning of a key is not plain from its name.  Its values
are the built-in ones themselves, so the two cannot come apart.  How such a
document is laid out as a text is left to whoever writes it.
-/
import Traceability.Config

namespace Traceability.Config

set_option autoImplicit false

/-- A key with its value and the comment after it. -/
structure StarterKey where
  key : String
  value : Json
  comment : Option String

/-- A section with the comment before its first key. -/
structure StarterSection where
  name : String
  comment : Option String
  keys : List StarterKey

/-- The comments at the top and the sections. -/
structure StarterDocument where
  head : List String
  sections : List StarterSection

/-- A section with the built-in values of the keys named. -/
def starterSection (name : String) (comment : Option String)
    (keys : List (String × Option String)) : StarterSection :=
  let table := ((Json.field? default name).bind Json.object?).getD []
  ⟨name, comment, keys.map fun (key, comment) =>
    ⟨key, (Json.field? table key).getD .null, comment⟩⟩

def starter : StarterDocument where
  head := ["hybrid-matrix configuration", "Environment overrides: HYBRID_MATRIX_<SECTION>_<KEY>"]
  sections :=
    [starterSection "paths" (some "State documents live under <workspace>/<state_dir>/")
        [("state_dir", none), ("store", none), ("snapshot", none), ("task_tree", none),
          ("rationale_map", some "relative to the workspace root")],
      starterSection "validation" none
        [("strict_drift", some "fail links whose fingerprint drifted")],
      starterSection "simulation" none [("patch_mode", some "anchored or substring")],
      starterSection "parser" none [("module", some "empty uses the built-in parser")],
      starterSection "fingerprint" none
        [("length", none), ("algorithm", some "sha256, sha1 or md5")]]

end Traceability.Config
