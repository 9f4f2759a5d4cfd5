/-
# Traceability.Proofs.Json.KeyPath -- what stands where in a nested table

A key path leads from table to table (`at?`).  What a table holds is what stands at its
key paths: two values are the same mapping when at every path both have a table, or
both the same other value, or neither anything (`Alike`).  The order of the names does
not count.

Setting a field changes what stands at and below its name, and nothing else
(`at?_setField`).
-/
import Traceability.Json.Basic

namespace Traceability.Json

set_option autoImplicit false

/-! ## Fields -/

section

variable {fields rest : Fields} {name other : String} {value held : Json}

theorem field?_cons_self : field? ((name, value) :: rest) name = some value :=
  List.lookup_cons_self

theorem field?_cons_of_ne (apart : name ≠ other) :
    field? ((other, value) :: rest) name = field? rest name := by
  rw [field?, List.lookup_cons, beq_eq_false_iff_ne.2 apart, field?]

theorem setField_cons_self (value : Json) :
    setField ((name, held) :: rest) name value = (name, value) :: rest := by
  rw [setField, if_pos (beq_self_eq_true name)]

theorem setField_cons_of_ne (apart : other ≠ name) (value : Json) :
    setField ((other, held) :: rest) name value = (other, held) :: setField rest name value := by
  rw [setField, if_neg (by rwa [beq_iff_eq])]

theorem field?_setField_self (fields : Fields) (name : String) (value : Json) :
    field? (setField fields name value) name = some value := by
  induction fields with
  | nil => exact field?_cons_self
  | cons field rest ih =>
      obtain ⟨other, old⟩ := field
      by_cases same : other = name
      · rw [same, setField_cons_self, field?_cons_self]
      · rw [setField_cons_of_ne same, field?_cons_of_ne (Ne.symm same), ih]

theorem field?_setField_of_ne (apart : other ≠ name) (fields : Fields) (value : Json) :
    field? (setField fields name value) other = field? fields other := by
  induction fields with
  | nil => exact field?_cons_of_ne apart
  | cons field rest ih =>
      obtain ⟨first, old⟩ := field
      by_cases same : first = name
      · rw [same, setField_cons_self, field?_cons_of_ne apart, field?_cons_of_ne apart]
      · rw [setField_cons_of_ne same]
        by_cases here : other = first
        · rw [here, field?_cons_self, field?_cons_self]
        · rw [field?_cons_of_ne here, field?_cons_of_ne here, ih]

/-- Setting a field to the value it has changes nothing. -/
theorem setField_of_field? (holds : field? fields name = some value) :
    setField fields name value = fields := by
  induction fields with
  | nil => exact nomatch holds
  | cons field rest ih =>
      obtain ⟨other, old⟩ := field
      by_cases same : other = name
      · subst same
        rw [field?_cons_self, Option.some.injEq] at holds
        rw [setField_cons_self, holds]
      · rw [field?_cons_of_ne (Ne.symm same)] at holds
        rw [setField_cons_of_ne same, ih holds]

/-- A field that is there keeps its place when it is set. -/
theorem map_fst_setField (holds : field? fields name = some held) (value : Json) :
    (setField fields name value).map Prod.fst = fields.map Prod.fst := by
  induction fields with
  | nil => exact nomatch holds
  | cons field rest ih =>
      obtain ⟨other, old⟩ := field
      by_cases same : other = name
      · rw [same, setField_cons_self]
        rfl
      · rw [field?_cons_of_ne (Ne.symm same)] at holds
        rw [setField_cons_of_ne same, List.map_cons, List.map_cons, ih holds]

theorem mem_of_field? (holds : field? fields name = some value) : (name, value) ∈ fields := by
  induction fields with
  | nil => exact nomatch holds
  | cons field rest ih =>
      obtain ⟨other, old⟩ := field
      by_cases same : name = other
      · subst same
        rw [field?_cons_self, Option.some.injEq] at holds
        rw [holds]
        exact List.mem_cons_self
      · rw [field?_cons_of_ne same] at holds
        exact List.mem_cons_of_mem _ (ih holds)

/-- Where no name stands twice, a field is looked up by its name. -/
theorem field?_eq_some_iff (distinct : (fields.map Prod.fst).Nodup) :
    field? fields name = some value ↔ (name, value) ∈ fields := by
  refine ⟨mem_of_field?, fun member => ?_⟩
  induction fields with
  | nil => exact nomatch member
  | cons field rest ih =>
      obtain ⟨other, old⟩ := field
      rw [List.map_cons, List.nodup_cons] at distinct
      rcases List.mem_cons.1 member with same | later
      · cases same
        exact field?_cons_self
      · have among : name ∈ rest.map Prod.fst := List.mem_map_of_mem (f := Prod.fst) later
        have apart : name ≠ other := fun same => distinct.1 (same ▸ among)
        rw [field?_cons_of_ne apart, ih distinct.2 later]

end

/-! ## Key paths -/

/-- The value at a key path. -/
def at? : Json → List String → Option Json
  | value, [] => some value
  | .object fields, name :: rest => (field? fields name).bind (at? · rest)
  | _, _ :: _ => none

def isTable : Json → Bool
  | .object _ => true
  | _ => false

/-- A value without what it holds, if it is a table. -/
def outline : Json → Json
  | .object _ => .object []
  | value => value

/-- The two values are the same mapping, whatever the order of the names. -/
def Alike (a b : Json) : Prop := ∀ path, (a.at? path).map outline = (b.at? path).map outline

section

variable {value : Json} {fields : Fields} {name : String} {path : List String}

theorem at?_nil (value : Json) : value.at? [] = some value := by
  rw [at?.eq_def]

theorem at?_object_cons (fields : Fields) (name : String) (rest : List String) :
    (Json.object fields).at? (name :: rest) = (field? fields name).bind (at? · rest) := rfl

theorem at?_cons_of_isTable_eq_false (leaf : value.isTable = false) (name : String)
    (rest : List String) : value.at? (name :: rest) = none := by
  cases value with
  | object fields => exact nomatch leaf
  | _ => rfl

theorem at?_append (value : Json) (front back : List String) :
    value.at? (front ++ back) = (value.at? front).bind (at? · back) := by
  induction front generalizing value with
  | nil => rw [at?_nil, Option.bind_some, List.nil_append]
  | cons name rest ih =>
      cases value with
      | object fields =>
          rw [List.cons_append, at?_object_cons, at?_object_cons, Option.bind_assoc]
          exact Option.bind_congr fun held _ => ih held
      | _ => rfl

theorem exists_table_of_at?_cons {found : Json} (there : value.at? (name :: path) = some found) :
    ∃ table, value = .object table := by
  cases value with
  | object table => exact ⟨table, rfl⟩
  | _ => exact nomatch there

/-- Above a place where something stands there are tables. -/
theorem exists_table_above {found : Json} {front : List String}
    (there : value.at? (front ++ name :: path) = some found) :
    ∃ table, value.at? front = some (.object table) := by
  rw [at?_append] at there
  obtain ⟨held, reached, there⟩ := Option.bind_eq_some_iff.1 there
  obtain ⟨table, rfl⟩ := exists_table_of_at?_cons there
  exact ⟨table, reached⟩

/-- What stands where after a field has been set. -/
theorem at?_setField (fields : Fields) (name : String) (value : Json) (other : String)
    (rest : List String) :
    (Json.object (setField fields name value)).at? (other :: rest) =
      if other = name then value.at? rest else (Json.object fields).at? (other :: rest) := by
  rw [at?_object_cons]
  split
  · rename_i same
    rw [same, field?_setField_self, Option.bind_some]
  · rename_i apart
    rw [field?_setField_of_ne apart, at?_object_cons]

end

/-! ## Mappings -/

mutual

/-- Does no table of a nested table name a field twice?  Arrays count as values. -/
def isMapping : Json → Bool
  | .object fields => decide (fields.map Prod.fst).Nodup && areMappings fields
  | _ => true

def areMappings : List (String × Json) → Bool
  | [] => true
  | (_, value) :: rest => value.isMapping && areMappings rest

end

theorem isMapping_of_field? {fields : Fields} (mappings : areMappings fields = true)
    {name : String} {value : Json} (holds : field? fields name = some value) :
    value.isMapping = true := by
  induction fields with
  | nil => exact nomatch holds
  | cons field rest ih =>
      obtain ⟨other, old⟩ := field
      rw [areMappings, Bool.and_eq_true] at mappings
      by_cases same : name = other
      · rw [same, field?_cons_self, Option.some.injEq] at holds
        rw [← holds]
        exact mappings.1
      · rw [field?_cons_of_ne same] at holds
        exact ih mappings.2 holds

theorem isMapping_object_iff {fields : Fields} : (Json.object fields).isMapping = true ↔
    (fields.map Prod.fst).Nodup ∧ areMappings fields = true := by
  rw [isMapping, Bool.and_eq_true, decide_eq_true_eq]

end Traceability.Json
