/-
# Traceability.Proofs.Config.Merge -- a configuration laid over another

What stands at a key path after a merge is decided by the path alone
(`mergeValue_decides`).  If the override has something there, that counts: its values as
they are, its tables as tables.  If it has nothing there, what the base has stays in
view, unless the override has put a value other than a table at some place above,
which hides everything below it.

From this `merge_overrides` reads off which values the merge holds, where it has tables,
and that the same override laid over it once more changes nothing.
-/
import Mathlib.Data.List.Infix
import Traceability.Config
import Traceability.Proofs.Json.Equality
import Traceability.Proofs.Json.KeyPath

namespace Traceability.Config

set_option autoImplicit false

open Json (at?_nil at?_object_cons at?_cons_of_isTable_eq_false)

/-! ## One level -/

theorem mergeValue_of_isTable_eq_false {value : Json} (leaf : value.isTable = false)
    (old : Option Json) : mergeValue old value = value := by
  cases value with
  | object fields => exact nomatch leaf
  | _ => rw [mergeValue.eq_def]

theorem mergeValue_none (value : Json) : mergeValue none value = value := by
  cases value <;> rw [mergeValue.eq_def]

theorem mergeValue_table (base fields : Json.Fields) :
    mergeValue (some (.object base)) (.object fields) = .object (merge base fields) := by
  rw [mergeValue]

/-- A table is merged with the fields of a table, and with nothing in the place of anything else. -/
theorem exists_mergeValue_table (old : Option Json) (fields : Json.Fields) :
    (∃ base, old = some (.object base)) ∨ mergeValue old (.object fields) = .object fields ∧
      old.bind Json.object? = none := by
  cases old with
  | none => exact .inr ⟨mergeValue_none _, rfl⟩
  | some held =>
      cases held with
      | object base => exact .inl ⟨base, rfl⟩
      | _ => exact .inr ⟨by rw [mergeValue.eq_def], rfl⟩

/-- Every name of the override is merged with what the base has under it; the others stay. -/
theorem field?_merge {override : Json.Fields} (distinct : (override.map Prod.fst).Nodup)
    (base : Json.Fields) (name : String) :
    Json.field? (merge base override) name =
      match Json.field? override name with
      | none => Json.field? base name
      | some value => some (mergeValue (Json.field? base name) value) := by
  induction override generalizing base with
  | nil => rw [merge]; rfl
  | cons field rest ih =>
      obtain ⟨other, value⟩ := field
      rw [List.map_cons, List.nodup_cons] at distinct
      rw [merge, ih distinct.2]
      by_cases same : name = other
      · subst same
        have later : Json.field? rest name = none := by
          cases found : Json.field? rest name with
          | none => rfl
          | some held =>
              exact absurd (List.mem_map_of_mem (f := Prod.fst) (Json.mem_of_field? found))
                distinct.1
        rw [later, Json.field?_cons_self]
        exact Json.field?_setField_self ..
      · rw [Json.field?_setField_of_ne same, Json.field?_cons_of_ne same]

/-- One step down a key path into what a table makes of an old value. -/
theorem at?_mergeValue_cons {fields : Json.Fields} (distinct : (fields.map Prod.fst).Nodup)
    (old : Option Json) (name : String) (path : List String) :
    (mergeValue old (.object fields)).at? (name :: path) =
      match Json.field? fields name with
      | none => old.bind (Json.at? · (name :: path))
      | some value =>
          (mergeValue ((old.bind Json.object?).bind (Json.field? · name)) value).at? path := by
  rcases exists_mergeValue_table old fields with ⟨base, rfl⟩ | ⟨replaced, noTable⟩
  · rw [mergeValue_table, at?_object_cons, field?_merge distinct]
    cases Json.field? fields name with
    | none => rfl
    | some value => rfl
  · rw [replaced, noTable, at?_object_cons]
    cases Json.field? fields name with
    | none =>
        cases old with
        | none => rfl
        | some held =>
            cases held with
            | object base => exact nomatch noTable
            | _ => rfl
    | some value =>
        show value.at? path = (mergeValue none value).at? path
        rw [mergeValue_none]

/-! ## Along a key path -/

/-- Whatever the value has on the way to a place, and at the place, is a table. -/
def OnlyTablesUpTo (value : Json) (path : List String) : Prop :=
  ∀ front, front <+: path → ∀ above, value.at? front = some above → above.isTable = true

instance (value : Json) (path : List String) : Decidable (OnlyTablesUpTo value path) :=
  decidable_of_iff (∀ front ∈ path.inits, (value.at? front).all Json.isTable = true) <| by
    simp only [OnlyTablesUpTo, List.mem_inits, Option.all_eq_true]

theorem onlyTablesUpTo_cons {fields : Json.Fields} {name : String} {path : List String} :
    OnlyTablesUpTo (.object fields) (name :: path) ↔
      ∀ value, Json.field? fields name = some value → OnlyTablesUpTo value path := by
  constructor
  · intro only value holds front begins above there
    refine only (name :: front) (List.cons_prefix_cons.2 ⟨rfl, begins⟩) above ?_
    rw [at?_object_cons, holds, Option.bind_some, there]
  · intro only front begins above there
    cases front with
    | nil =>
        rw [at?_nil, Option.some.injEq] at there
        rw [← there]
        rfl
    | cons first front =>
        obtain ⟨same, inner⟩ := List.cons_prefix_cons.1 begins
        rw [at?_object_cons, same] at there
        obtain ⟨value, holds, there⟩ := Option.bind_eq_some_iff.1 there
        exact only value holds front inner above there

/-- What stands at a key path after a value has been laid over an old one. -/
inductive Decides (old : Option Json) (value : Json) (path : List String) : Option Json → Prop where
  /-- The new value counts, unless it is a table. -/
  | replaced {leaf : Json} (there : value.at? path = some leaf) (isLeaf : leaf.isTable = false) :
      Decides old value path (some leaf)
  /-- A table of the new value is a table, whatever else it may hold. -/
  | merged {fields all : Json.Fields} (there : value.at? path = some (.object fields)) :
      Decides old value path (some (.object all))
  /-- Where the new value has nothing, what was there stays. -/
  | kept (absent : value.at? path = none) (inView : OnlyTablesUpTo value path) :
      Decides old value path (old.bind (Json.at? · path))
  /-- Below a value that is no table there is nothing. -/
  | hidden (absent : value.at? path = none) (covered : ¬OnlyTablesUpTo value path) :
      Decides old value path none

theorem mergeValue_decides {value : Json} (mapping : value.isMapping = true) (old : Option Json)
    (path : List String) : Decides old value path ((mergeValue old value).at? path) := by
  induction path generalizing value old with
  | nil =>
      rw [at?_nil]
      cases value with
      | object fields =>
          rcases exists_mergeValue_table old fields with ⟨base, rfl⟩ | ⟨replaced, -⟩
          · rw [mergeValue_table]
            exact .merged (at?_nil _)
          · rw [replaced]
            exact .merged (at?_nil _)
      | _ =>
          rw [mergeValue_of_isTable_eq_false rfl]
          exact .replaced (at?_nil _) rfl
  | cons name path ih =>
      cases value with
      | object fields =>
          obtain ⟨distinct, mappings⟩ := Json.isMapping_object_iff.1 mapping
          have below := at?_object_cons fields name path
          rw [at?_mergeValue_cons distinct]
          cases holds : Json.field? fields name with
          | none =>
              rw [holds] at below
              refine .kept below (onlyTablesUpTo_cons.2 fun value there => ?_)
              rw [holds] at there
              exact nomatch there
          | some value =>
              rw [holds, Option.bind_some] at below
              have only : OnlyTablesUpTo (.object fields) (name :: path) ↔
                  OnlyTablesUpTo value path := by
                rw [onlyTablesUpTo_cons, holds]
                exact ⟨fun only => only value rfl, fun only _ same => Option.some.inj same ▸ only⟩
              have same : ((old.bind Json.object?).bind (Json.field? · name)).bind
                  (Json.at? · path) = old.bind (Json.at? · (name :: path)) := by
                cases old with
                | none => rfl
                | some held => cases held <;> rfl
              have inner := ih (Json.isMapping_of_field? mappings holds)
                ((old.bind Json.object?).bind (Json.field? · name))
              show Decides old (.object fields) (name :: path) ((mergeValue _ value).at? path)
              generalize (mergeValue _ value).at? path = found at inner ⊢
              cases inner with
              | replaced there isLeaf => exact .replaced (below.trans there) isLeaf
              | merged there => exact .merged (below.trans there)
              | kept absent inView =>
                  rw [same]
                  exact .kept (below.trans absent) (only.2 inView)
              | hidden absent covered =>
                  exact .hidden (below.trans absent) fun inView => covered (only.1 inView)
      | _ =>
          rw [mergeValue_of_isTable_eq_false rfl, at?_cons_of_isTable_eq_false rfl]
          refine .hidden (at?_cons_of_isTable_eq_false rfl name path) fun only => ?_
          exact nomatch only [] List.nil_prefix _ (at?_nil _)

/-! ## Twice -/

/-- Fields that change nothing one by one change nothing together. -/
theorem merge_eq_self {fields base : Json.Fields}
    (each : ∀ field ∈ fields, ∃ held, Json.field? base field.1 = some held ∧
      mergeValue (some held) field.2 = held) : merge base fields = base := by
  induction fields with
  | nil => rw [merge]
  | cons field rest ih =>
      obtain ⟨name, value⟩ := field
      obtain ⟨held, there, same⟩ := each _ List.mem_cons_self
      rw [merge, there, same, Json.setField_of_field? there]
      exact ih fun other member => each other (List.mem_cons_of_mem _ member)

mutual

/-- A value that has been laid over another changes nothing when it is laid over the result. -/
theorem mergeValue_again (value : Json) (mapping : value.isMapping = true) (old : Option Json) :
    mergeValue (some (mergeValue old value)) value = mergeValue old value := by
  match value with
  | .object fields =>
      obtain ⟨distinct, mappings⟩ := Json.isMapping_object_iff.1 mapping
      have inner := mergeValue_again_of_mem fields mappings
      rcases exists_mergeValue_table old fields with ⟨base, rfl⟩ | ⟨replaced, -⟩
      · rw [mergeValue_table, mergeValue_table]
        congr 1
        refine merge_eq_self fun field member => ?_
        have holds := (Json.field?_eq_some_iff distinct).2 member
        refine ⟨mergeValue (Json.field? base field.1) field.2, ?_, inner field member _⟩
        rw [field?_merge distinct, holds]
      · rw [replaced, mergeValue_table]
        congr 1
        refine merge_eq_self fun field member => ?_
        have twice := inner field member none
        rw [mergeValue_none] at twice
        exact ⟨field.2, (Json.field?_eq_some_iff distinct).2 member, twice⟩
  | .null => rw [mergeValue_of_isTable_eq_false rfl, mergeValue_of_isTable_eq_false rfl]
  | .bool _ => rw [mergeValue_of_isTable_eq_false rfl, mergeValue_of_isTable_eq_false rfl]
  | .int _ => rw [mergeValue_of_isTable_eq_false rfl, mergeValue_of_isTable_eq_false rfl]
  | .real _ => rw [mergeValue_of_isTable_eq_false rfl, mergeValue_of_isTable_eq_false rfl]
  | .string _ => rw [mergeValue_of_isTable_eq_false rfl, mergeValue_of_isTable_eq_false rfl]
  | .array _ => rw [mergeValue_of_isTable_eq_false rfl, mergeValue_of_isTable_eq_false rfl]

theorem mergeValue_again_of_mem (fields : List (String × Json))
    (mappings : Json.areMappings fields = true) : ∀ field ∈ fields, ∀ old,
      mergeValue (some (mergeValue old field.2)) field.2 = mergeValue old field.2 := by
  match fields with
  | [] => exact fun _ member => nomatch member
  | (name, value) :: rest =>
      rw [Json.areMappings, Bool.and_eq_true] at mappings
      intro field member old
      rcases List.mem_cons.1 member with rfl | later
      · exact mergeValue_again value mappings.1 old
      · exact mergeValue_again_of_mem rest mappings.2 field later old

end

/-! ## The whole -/

/-- There is a table at the key path. -/
def HasTableAt (value : Json) (path : List String) : Prop :=
  ∃ fields, value.at? path = some (.object fields)

/-- **A merge is a deep override.**  It holds a value other than a table exactly where the override
has that value, or where the base has it and the override has nothing, with nothing but tables on
the way.  It has a table exactly where the override has one, or where the base has one and the
override has nothing but tables up to there.  The same override once more changes nothing. -/
theorem merge_overrides (base : Json.Fields) {override : Json.Fields}
    (mapping : (Json.object override).isMapping = true) :
    (∀ path leaf, leaf.isTable = false →
      ((Json.object (merge base override)).at? path = some leaf ↔
        (Json.object override).at? path = some leaf ∨
          (Json.object base).at? path = some leaf ∧ (Json.object override).at? path = none ∧
            OnlyTablesUpTo (.object override) path)) ∧
    (∀ path, HasTableAt (.object (merge base override)) path ↔
      HasTableAt (.object override) path ∨
        HasTableAt (.object base) path ∧ OnlyTablesUpTo (.object override) path) ∧
    merge (merge base override) override = merge base override := by
  have decides := mergeValue_decides mapping (some (.object base))
  rw [mergeValue_table] at decides
  refine ⟨fun path leaf isLeaf => ?_, fun path => ?_, ?_⟩
  · have decided := decides path
    generalize (Json.object (merge base override)).at? path = found at decided ⊢
    cases decided with
    | replaced there _ => simp [there]
    | merged there =>
        have noTable : ∀ fields, Json.object fields ≠ leaf := by
          rintro fields rfl
          exact nomatch isLeaf
        simp [there, noTable]
    | kept absent inView => simp [absent, inView]
    | hidden absent covered => simp [absent, covered]
  · have decided := decides path
    unfold HasTableAt
    generalize (Json.object (merge base override)).at? path = found at decided ⊢
    cases decided with
    | @replaced leaf there isLeaf =>
        have noTable : ∀ fields, leaf ≠ Json.object fields := by
          rintro fields rfl
          exact nomatch isLeaf
        have covered : ¬OnlyTablesUpTo (.object override) path := fun only => by
          rw [only path List.prefix_rfl leaf there] at isLeaf
          exact nomatch isLeaf
        simp [there, noTable, covered]
    | merged there => simp [there]
    | kept absent inView => simp [absent, inView]
    | hidden absent covered => simp [absent, covered]
  · have twice := mergeValue_again (.object override) mapping (some (.object base))
    rw [mergeValue_table, mergeValue_table, Json.object.injEq] at twice
    exact twice

/-- A configuration that puts values and tables in the place of tables and values. -/
def contrary : Json.Fields :=
  [("paths", .object [("store", .object [("name", .string "links.json")])]),
    ("validation", .bool true), ("fingerprint", .object [("length", .int 8)])]

/-- Laid over the built-in one it turns a value into a table and a table into a value, and leaves the
rest. -/
theorem merge_overrides_contrary : (Json.object contrary).isMapping = true ∧
    HasTableAt (.object (merge default contrary)) ["paths", "store"] ∧
    (Json.object (merge default contrary)).at? ["validation"] = some (.bool true) ∧
    ¬HasTableAt (.object (merge default contrary)) ["validation"] ∧
    (Json.object (merge default contrary)).at? ["fingerprint", "algorithm"] =
      some (.string "sha256") ∧
    merge (merge default contrary) contrary = merge default contrary := by
  have mapping : (Json.object contrary).isMapping = true := by decide +kernel
  obtain ⟨leaves, tables, again⟩ := merge_overrides default mapping
  refine ⟨mapping, (tables _).2 (.inl ⟨_, rfl⟩), (leaves _ _ rfl).2 (.inl rfl), ?_,
    (leaves _ _ rfl).2 (.inr ⟨rfl, rfl, by decide +kernel⟩), again⟩
  rw [tables]
  rintro (⟨fields, there⟩ | ⟨-, only⟩)
  · exact nomatch there
  · exact absurd only (by decide +kernel)

end Traceability.Config
