/-
# Traceability.Proofs.Json.Equality -- are two documents the same?

Equality of documents can be decided, so what is said about written documents can be
evaluated.
-/
import Traceability.Json.Basic

namespace Traceability.Json

set_option autoImplicit false

mutual

/-- Are two documents the same? -/
def same : Json → Json → Bool
  | .null, .null => true
  | .bool a, .bool b => a == b
  | .int a, .int b => a == b
  | .real a, .real b => a == b
  | .string a, .string b => a == b
  | .array items, .array others => sameItems items others
  | .object fields, .object others => sameFields fields others
  | _, _ => false

def sameItems : List Json → List Json → Bool
  | [], [] => true
  | item :: rest, other :: others => same item other && sameItems rest others
  | _, _ => false

def sameFields : List (String × Json) → List (String × Json) → Bool
  | [], [] => true
  | (name, value) :: rest, (other, held) :: others =>
      name == other && same value held && sameFields rest others
  | _, _ => false

end

mutual

theorem same_iff (a b : Json) : same a b = true ↔ a = b := by
  match a with
  | .array items =>
      cases b with
      | array others => simp [same, sameItems_iff items others]
      | _ => simp [same]
  | .object fields =>
      cases b with
      | object others => simp [same, sameFields_iff fields others]
      | _ => simp [same]
  | .null => cases b <;> simp [same]
  | .bool _ => cases b <;> simp [same]
  | .int _ => cases b <;> simp [same]
  | .real _ => cases b <;> simp [same]
  | .string _ => cases b <;> simp [same]

theorem sameItems_iff (items others : List Json) : sameItems items others = true ↔ items = others := by
  match items, others with
  | [], [] => simp [sameItems]
  | [], _ :: _ => simp [sameItems]
  | _ :: _, [] => simp [sameItems]
  | item :: rest, other :: others =>
      simp [sameItems, same_iff item other, sameItems_iff rest others]

theorem sameFields_iff (fields others : List (String × Json)) :
    sameFields fields others = true ↔ fields = others := by
  match fields, others with
  | [], [] => simp [sameFields]
  | [], _ :: _ => simp [sameFields]
  | _ :: _, [] => simp [sameFields]
  | (name, value) :: rest, (other, held) :: others =>
      simp [sameFields, same_iff value held, sameFields_iff rest others, and_assoc]

end

instance : DecidableEq Json := fun a b => decidable_of_iff (same a b = true) (same_iff a b)

end Traceability.Json
