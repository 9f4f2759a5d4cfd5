/-
# Traceability.Proofs.Config.Environment -- variables, in any order

A variable names an entry of a table: a section and a key in it (`Names`).  Which one is
decided by the sections that are tables, and by nothing else.  Setting an entry leaves
every section that is a table a table, so the variables still to come name what they
named at the start; and two variables for one entry would have the same name in lower
case.

Hence what a run of variables makes of a configuration can be said without their order
(`Overrides`): the named entries have the values of their variables, everything beside
them is as it was.
-/
import Mathlib.Data.List.Infix
import Traceability.Config
import Traceability.Proofs.Json.KeyPath

/-! ## Lower case -/

namespace Traceability.Text

set_option autoImplicit false

/-- No letter counts as following across an underscore. -/
theorem caseFollows_append_underscore (front rest : Text) :
    caseFollows (front ++ '_' :: rest) = caseFollows front := by
  unfold caseFollows
  induction front with
  | nil => rfl
  | cons c front ih =>
      rw [List.cons_append, List.dropWhile_cons, List.dropWhile_cons]
      split
      · exact ih
      · rfl

theorem lowercaseFrom_append_underscore (after : Bool) (front rest : Text) :
    lowercaseFrom after (front ++ '_' :: rest) =
      lowercaseFrom after front ++ '_' :: lowercase rest := by
  induction front generalizing after with
  | nil => cases after <;> rfl
  | cons c front ih =>
      rw [List.cons_append, lowercaseFrom, lowercaseFrom, ih, caseFollows_append_underscore,
        List.append_assoc]

end Traceability.Text

namespace Traceability.Config

set_option autoImplicit false

open Json (at?_nil at?_object_cons)

/-- The name of a variable in lower case, from what stands after the mark. -/
theorem lowercase_variableMark_append (rest : Text) :
    Text.lowercase (variableMark ++ rest) =
      Text.lowercase "HYBRID_MATRIX".toList ++ '_' :: Text.lowercase rest :=
  Text.lowercaseFrom_append_underscore false "HYBRID_MATRIX".toList rest

/-! ## What a variable names -/

/-- The section is there, and is a table. -/
def IsSection (config : Json.Fields) (part : String) : Prop :=
  ∃ table, Json.field? config part = some (.object table)

/-- What stands after the mark begins with the name of the section and an underscore. -/
def Fits (rest : Text) (part : String) : Prop := part.toList ++ ['_'] <+: rest

/-- The variable names a key of a section: the longest table that its name allows. -/
structure Names (config : Json.Fields) (name part key : String) : Prop where
  spelled : ∃ rest, name.toList = variableMark ++ rest ∧
    Text.lowercase rest = part.toList ++ '_' :: key.toList
  isSection : IsSection config part
  longest : ∀ other, IsSection config other → Fits (part.toList ++ '_' :: key.toList) other →
    other.length ≤ part.length

section

variable {config : Json.Fields} {name part key : String} {rest : Text}

theorem fits_iff : Fits rest part ↔ ∃ key : String, rest = part.toList ++ '_' :: key.toList := by
  constructor
  · rintro ⟨key, rfl⟩
    exact ⟨String.ofList key, by simp⟩
  · rintro ⟨key, rfl⟩
    exact ⟨key.toList, by simp⟩

theorem Fits.eq_of_length_eq {other : String} (fits : Fits rest part) (fitsOther : Fits rest other)
    (same : part.length = other.length) : part = other := by
  obtain ⟨key, rfl⟩ := fits_iff.1 fits
  obtain ⟨otherKey, spelled⟩ := fits_iff.1 fitsOther
  rw [← String.length_toList, ← String.length_toList] at same
  exact String.toList_injective (List.append_inj_left spelled same)

/-- A variable names at most one entry. -/
theorem Names.unique {otherPart otherKey : String} (names : Names config name part key)
    (others : Names config name otherPart otherKey) : part = otherPart ∧ key = otherKey := by
  obtain ⟨rest, marked, spelled⟩ := names.spelled
  obtain ⟨_, marked', spelled'⟩ := others.spelled
  rw [marked, List.append_cancel_left_eq] at marked'
  subst marked'
  have fits := fits_iff.2 ⟨key, spelled⟩
  have fits' := fits_iff.2 ⟨otherKey, spelled'⟩
  have notLonger := names.longest _ others.isSection (spelled ▸ fits')
  have notShorter := others.longest _ names.isSection (spelled' ▸ fits)
  obtain rfl := fits.eq_of_length_eq fits' (Nat.le_antisymm notShorter notLonger)
  rw [spelled, List.append_cancel_left_eq, List.cons.injEq] at spelled'
  exact ⟨rfl, String.toList_injective spelled'.2⟩

/-- Variables that name the same entry have the same name in lower case. -/
theorem Names.lowercaseName_eq {other : String} (names : Names config name part key)
    (others : Names config other part key) : lowercaseName name = lowercaseName other := by
  obtain ⟨rest, marked, spelled⟩ := names.spelled
  obtain ⟨otherRest, markedOther, spelledOther⟩ := others.spelled
  rw [lowercaseName, lowercaseName, marked, markedOther, lowercase_variableMark_append,
    lowercase_variableMark_append, spelled, spelledOther]

/-- What a variable names depends on which sections are tables, not on what is in them. -/
theorem Names.congr {other : Json.Fields}
    (same : ∀ part, IsSection config part ↔ IsSection other part)
    (names : Names config name part key) : Names other name part key where
  spelled := names.spelled
  isSection := (same part).1 names.isSection
  longest section' isSection := names.longest section' ((same section').2 isSection)

end

/-! ## The search for the section -/

theorem keyIn_eq_some_iff {rest key : Text} {name : String} :
    keyIn rest name = some key ↔ rest = name.toList ++ '_' :: key := by
  rw [keyIn]
  constructor
  · intro found
    split at found
    · rename_i opens
      obtain ⟨key, rfl⟩ := List.isPrefixOf_iff_prefix.1 opens
      rw [List.drop_left, Option.some.injEq] at found
      rw [found, List.append_assoc, List.singleton_append]
    · exact nomatch found
  · rintro rfl
    have opens : name.toList ++ '_' :: key = name.toList ++ ['_'] ++ key := List.append_cons ..
    rw [opens, if_pos (List.isPrefixOf_iff_prefix.2 (List.prefix_append ..)), List.drop_left]

theorem keyIn_eq_none {rest : Text} {name : String} (missing : keyIn rest name = none) :
    ¬Fits rest name := fun fits => by
  obtain ⟨key, spelled⟩ := fits_iff.1 fits
  rw [keyIn_eq_some_iff.2 spelled] at missing
  exact nomatch missing

/-- The longest of the tables that fit, or the news that none fits. -/
inductive Longest (rest : Text) (config : Json.Fields) :
    Option (String × Json.Fields × String) → Prop where
  | found {part key : String} {table : Json.Fields} (member : (part, .object table) ∈ config)
      (spelled : rest = part.toList ++ '_' :: key.toList)
      (longest : ∀ other held, (other, .object held) ∈ config → Fits rest other →
        other.length ≤ part.length) : Longest rest config (some (part, table, key))
  | missing (unfit : ∀ other held, (other, .object held) ∈ config → ¬Fits rest other) :
      Longest rest config none

/-- A field that is no table or does not fit makes no difference. -/
theorem Longest.cons {rest : Text} {config : Json.Fields}
    {found : Option (String × Json.Fields × String)} (later : Longest rest config found)
    {name : String} {value : Json} (out : value.isTable = true → ¬Fits rest name) :
    Longest rest ((name, value) :: config) found := by
  have skipped : ∀ {other held}, (other, .object held) ∈ (name, value) :: config →
      Fits rest other → (other, .object held) ∈ config := by
    intro other held member fits
    rcases List.mem_cons.1 member with same | member
    · cases same
      exact absurd fits (out rfl)
    · exact member
  cases later with
  | found member spelled longest =>
      exact .found (List.mem_cons_of_mem _ member) spelled
        fun other held there fits => longest other held (skipped there fits) fits
  | missing unfit =>
      exact .missing fun other held there fits => unfit other held (skipped there fits) fits

/-- A table that fits counts unless one of the later ones is longer. -/
theorem Longest.cons_of_fits {rest : Text} {config : Json.Fields}
    {found : Option (String × Json.Fields × String)} {name key : String} {table : Json.Fields}
    (spelled : rest = name.toList ++ '_' :: key.toList) :
    Longest rest config found → Longest rest ((name, .object table) :: config) (match found with
      | some (other, held) =>
          if name.length < other.length then some (other, held) else some (name, table, key)
      | none => some (name, table, key)) := by
  intro later
  -- a bound for the later tables and for this one is a bound for all
  have first : ∀ {length}, name.length ≤ length → (∀ other held,
      (other, .object held) ∈ config → Fits rest other → other.length ≤ length) →
      ∀ other held, (other, .object held) ∈ (name, .object table) :: config →
        Fits rest other → other.length ≤ length := by
    intro length notLonger longest other held member fits
    rcases List.mem_cons.1 member with same | member
    · cases same
      exact notLonger
    · exact longest other held member fits
  cases later with
  | found member spelled' longest =>
      dsimp only
      split
      · rename_i shorter
        exact .found (List.mem_cons_of_mem _ member) spelled' (first (Nat.le_of_lt shorter) longest)
      · rename_i notShorter
        exact .found List.mem_cons_self spelled (first le_rfl fun other held there fits =>
          (longest other held there fits).trans (Nat.le_of_not_lt notShorter))
  | missing unfit =>
      exact .found List.mem_cons_self spelled
        (first le_rfl fun other held there fits => absurd fits (unfit other held there))

theorem sectionFor_longest (rest : Text) (config : Json.Fields) :
    Longest rest config (sectionFor rest config) := by
  induction config with
  | nil => exact .missing fun _ _ member => nomatch member
  | cons field others ih =>
      obtain ⟨name, value⟩ := field
      rw [sectionFor.eq_def]
      dsimp only
      cases value with
      | object table =>
          cases fits : keyIn rest name with
          | none => exact ih.cons fun _ => keyIn_eq_none fits
          | some key =>
              refine Longest.cons_of_fits ?_ ih
              rw [keyIn_eq_some_iff.1 fits, String.toList_ofList]
      | _ => exact ih.cons fun isTable => nomatch isTable

/-! ## One variable -/

section

variable {config : Json.Fields} {named : String × String} {part key : String}

/-- Setting an entry of a section leaves the sections where they are. -/
theorem isSection_setField_iff {table : Json.Fields} (there : IsSection config part)
    (other : String) :
    IsSection (Json.setField config part (.object table)) other ↔ IsSection config other := by
  by_cases same : other = part
  · rw [same]
    exact ⟨fun _ => there, fun _ => ⟨table, Json.field?_setField_self ..⟩⟩
  · rw [IsSection, Json.field?_setField_of_ne same, IsSection]

/-- The search finds what the variable names, or there is no section that fits. -/
theorem sectionFor_names (distinct : (config.map Prod.fst).Nodup) {name : String} {rest : Text}
    (marked : name.toList = variableMark ++ rest) :
    (∃ part key table, sectionFor (Text.lowercase rest) config = some (part, table, key) ∧
      Json.field? config part = some (.object table) ∧ Names config name part key) ∨
    sectionFor (Text.lowercase rest) config = none ∧
      ∀ part, IsSection config part → ¬Fits (Text.lowercase rest) part := by
  have search := sectionFor_longest (Text.lowercase rest) config
  generalize sectionFor (Text.lowercase rest) config = found at search ⊢
  cases search with
  | @found part key table member spelled longest =>
      have holds := (Json.field?_eq_some_iff distinct).2 member
      refine .inl ⟨part, key, table, rfl, holds, ⟨rest, marked, spelled⟩, ⟨table, holds⟩, ?_⟩
      rintro other ⟨held, there⟩ fits
      exact longest other held (Json.mem_of_field? there) (spelled ▸ fits)
  | missing unfit =>
      refine .inr ⟨rfl, ?_⟩
      rintro part ⟨table, holds⟩
      exact unfit part table (Json.mem_of_field? holds)

/-- A variable sets the entry it names. -/
theorem applyVariable_of_names (distinct : (config.map Prod.fst).Nodup)
    (names : Names config named.1 part key) :
    ∃ table, Json.field? config part = some (.object table) ∧ applyVariable config named =
      Json.setField config part (.object (Json.setField table key (variableValue named.2))) := by
  obtain ⟨rest, marked, spelled⟩ := names.spelled
  rw [applyVariable, marked, if_pos (List.isPrefixOf_iff_prefix.2 (List.prefix_append ..)),
    List.drop_left]
  rcases sectionFor_names distinct marked with
    ⟨part', key', table, found, holds, others⟩ | ⟨-, unfit⟩
  · obtain ⟨rfl, rfl⟩ := names.unique others
    rw [found]
    exact ⟨table, holds, rfl⟩
  · exact absurd (fits_iff.2 ⟨key, spelled⟩) (unfit part names.isSection)

/-- A variable that names nothing changes nothing. -/
theorem applyVariable_of_not_names (distinct : (config.map Prod.fst).Nodup)
    (unnamed : ∀ part key, ¬Names config named.1 part key) :
    applyVariable config named = config := by
  rw [applyVariable]
  split
  · rename_i opens
    obtain ⟨rest, marked⟩ := List.isPrefixOf_iff_prefix.1 opens
    rw [← marked, List.drop_left]
    rcases sectionFor_names distinct marked.symm with ⟨part, key, -, -, -, names⟩ | ⟨none, -⟩
    · exact absurd names (unnamed part key)
    · rw [none]
  · rfl

/-- The sections stay distinct, and they stay the same, whatever a variable does. -/
theorem applyVariable_keeps (distinct : (config.map Prod.fst).Nodup) (named : String × String) :
    ((applyVariable config named).map Prod.fst).Nodup ∧
      ∀ part, IsSection config part ↔ IsSection (applyVariable config named) part := by
  by_cases some : ∃ part key, Names config named.1 part key
  · obtain ⟨part, key, names⟩ := some
    obtain ⟨table, holds, applied⟩ := applyVariable_of_names distinct names
    rw [applied, Json.map_fst_setField holds]
    exact ⟨distinct, fun other => (isSection_setField_iff names.isSection other).symm⟩
  · rw [applyVariable_of_not_names distinct fun part key names => some ⟨part, key, names⟩]
    exact ⟨distinct, fun _ => Iff.rfl⟩

end

/-! ## A run of variables -/

/-- Neither of the two key paths leads through the other. -/
def Beside (path entry : List String) : Prop := ¬entry <+: path ∧ ¬path <+: entry

theorem beside_of_ne {part key otherPart otherKey : String}
    (apart : ¬(part = otherPart ∧ key = otherKey)) : Beside [part, key] [otherPart, otherKey] := by
  constructor <;> intro begins <;> refine apart ?_
  · obtain ⟨same, begins⟩ := List.cons_prefix_cons.1 begins
    exact ⟨same.symm, (List.cons_prefix_cons.1 begins).1.symm⟩
  · obtain ⟨same, begins⟩ := List.cons_prefix_cons.1 begins
    exact ⟨same, (List.cons_prefix_cons.1 begins).1⟩

/-- The result holds the values of the variables at the entries they name, and beside these
what the configuration holds. -/
structure Overrides (config : Json.Fields) (environment : List (String × String))
    (result : Json.Fields) : Prop where
  sets : ∀ named ∈ environment, ∀ part key, Names config named.1 part key →
    (Json.object result).at? [part, key] = some (variableValue named.2)
  keeps : ∀ path, (∀ named ∈ environment, ∀ part key, Names config named.1 part key →
    Beside path [part, key]) → (Json.object result).at? path = (Json.object config).at? path

section

variable {config : Json.Fields} {named : String × String} {part key : String}

theorem at?_applyVariable (distinct : (config.map Prod.fst).Nodup)
    (names : Names config named.1 part key) :
    (Json.object (applyVariable config named)).at? [part, key] =
      some (variableValue named.2) := by
  obtain ⟨table, -, applied⟩ := applyVariable_of_names distinct names
  rw [applied, Json.at?_setField, if_pos rfl, Json.at?_setField, if_pos rfl, at?_nil]

theorem at?_applyVariable_of_beside (distinct : (config.map Prod.fst).Nodup) {path : List String}
    (beside : ∀ part key, Names config named.1 part key → Beside path [part, key]) :
    (Json.object (applyVariable config named)).at? path = (Json.object config).at? path := by
  by_cases some : ∃ part key, Names config named.1 part key
  · obtain ⟨part, key, names⟩ := some
    obtain ⟨table, holds, applied⟩ := applyVariable_of_names distinct names
    obtain ⟨notBelow, notAbove⟩ := beside part key names
    rw [applied]
    match path with
    | [] => exact absurd List.nil_prefix notAbove
    | first :: rest =>
        rw [Json.at?_setField]
        split
        · rename_i same
          subst same
          match rest with
          | [] => exact absurd (List.prefix_append [first] [key]) notAbove
          | second :: rest =>
              have apart : second ≠ key := by
                rintro rfl
                exact notBelow (List.prefix_append [first, second] rest)
              rw [Json.at?_setField, if_neg apart, at?_object_cons config, holds, Option.bind_some]
        · rfl
  · rw [applyVariable_of_not_names distinct fun part key names => some ⟨part, key, names⟩]

/-- **The named entries are set, and nothing else**, when no two variables have the same name in
lower case. -/
theorem applyVariables_overrides {environment : List (String × String)}
    (apart : environment.Pairwise fun a b => lowercaseName a.1 ≠ lowercaseName b.1)
    (distinct : (config.map Prod.fst).Nodup) :
    Overrides config environment (applyVariables config environment) := by
  induction environment generalizing config with
  | nil => exact ⟨fun _ member => (nomatch member), fun _ _ => rfl⟩
  | cons first rest ih =>
      obtain ⟨apartFirst, apart⟩ := List.pairwise_cons.1 apart
      obtain ⟨distinct', same⟩ := applyVariable_keeps distinct first
      have later := ih apart distinct'
      constructor
      · intro named member part key names
        rcases List.mem_cons.1 member with rfl | member
        · -- no later variable names the entry of the first one
          refine (later.keeps _ fun other among part' key' names' => ?_).trans
            (at?_applyVariable distinct names)
          refine beside_of_ne ?_
          rintro ⟨rfl, rfl⟩
          exact apartFirst other among
            (names.lowercaseName_eq (names'.congr fun part => (same part).symm))
        · exact later.sets named member part key (names.congr same)
      · intro path beside
        refine (later.keeps path fun other among part key names => ?_).trans
          (at?_applyVariable_of_beside distinct (beside first List.mem_cons_self))
        exact beside other (List.mem_cons_of_mem _ among) part key
          (names.congr fun part => (same part).symm)

/-- What the same variables make of a configuration is the same mapping. -/
theorem Overrides.alike {environment other : List (String × String)} {a b : Json.Fields}
    (one : Overrides config environment a) (two : Overrides config other b)
    (same : ∀ named, named ∈ other ↔ named ∈ environment) :
    Json.Alike (.object a) (.object b) := by
  intro path
  by_cases beside : ∀ named ∈ environment, ∀ part key, Names config named.1 part key →
    Beside path [part, key]
  · rw [one.keeps path beside,
      two.keeps path fun named member => beside named ((same named).1 member)]
  · simp only [not_forall] at beside
    obtain ⟨named, member, part, key, names, meets⟩ := beside
    have there := one.sets named member part key names
    have there' := two.sets named ((same named).2 member) part key names
    rcases Classical.em ([part, key] <+: path) with ⟨back, rfl⟩ | notBelow
    · rw [Json.at?_append, Json.at?_append, there, there']
    · -- above an entry there are tables on both sides
      obtain ⟨back, split⟩ : path <+: [part, key] :=
        not_not.1 fun notAbove => meets ⟨notBelow, notAbove⟩
      cases back with
      | nil =>
          rw [List.append_nil] at split
          exact absurd (split ▸ List.prefix_rfl) notBelow
      | cons name rest =>
          rw [← split] at there there'
          obtain ⟨_, above⟩ := Json.exists_table_above there
          obtain ⟨_, above'⟩ := Json.exists_table_above there'
          rw [above, above']
          rfl

end

/-- **The order of the variables does not count.**  Every variable with the mark names exactly one
entry, the key after the longest table-valued section that fits, unless no such section fits.  The
named entries are set, everything beside them is as it was, and any other order of the variables
makes the same mapping. -/
theorem applyVariables_orderless {config : Json.Fields} (distinct : (config.map Prod.fst).Nodup)
    {environment : List (String × String)}
    (apart : environment.Pairwise fun a b => lowercaseName a.1 ≠ lowercaseName b.1) :
    (∀ (name : String) (rest : Text), name.toList = variableMark ++ rest →
      (∃! entry : String × String, Names config name entry.1 entry.2) ∨
        ∀ part, IsSection config part → ¬Fits (Text.lowercase rest) part) ∧
    Overrides config environment (applyVariables config environment) ∧
    ∀ other : List (String × String), other.Perm environment →
      Json.Alike (.object (applyVariables config other))
        (.object (applyVariables config environment)) := by
  have overrides := applyVariables_overrides apart distinct
  refine ⟨fun name rest marked => ?_, overrides, fun other perm => ?_⟩
  · rcases sectionFor_names distinct marked with ⟨part, key, -, -, -, names⟩ | ⟨-, unfit⟩
    · refine .inl ⟨(part, key), names, fun entry others => ?_⟩
      obtain ⟨samePart, sameKey⟩ := others.unique names
      exact Prod.ext samePart sameKey
    · exact .inr unfit
  · have apart' := (perm.pairwise_iff fun apart => Ne.symm apart).2 apart
    exact (applyVariables_overrides apart' distinct).alike overrides fun named =>
      perm.mem_iff.symm

/-- Sections whose names begin alike; the longest is no table. -/
def overlapping : Json.Fields :=
  [("paths", .object [("task_tree", .string "tree.json")]), ("paths_task", .object []),
    ("paths_task_tree", .string "none")]

/-- One variable for each of the tables. -/
def taskVariables : List (String × String) :=
  [("HYBRID_MATRIX_PATHS_TASK_TREE", "[1]"), ("HYBRID_MATRIX_Paths_Store", "links.json")]

/-- The variables reach the longest table and the shorter one, in both orders. -/
theorem applyVariables_orderless_overlapping : (overlapping.map Prod.fst).Nodup ∧
    (taskVariables.Pairwise fun a b => lowercaseName a.1 ≠ lowercaseName b.1) ∧
    Json.Alike (.object (applyVariables overlapping taskVariables.reverse))
      (.object (applyVariables overlapping taskVariables)) ∧
    (Json.object (applyVariables overlapping taskVariables)).at? ["paths_task", "tree"] =
      some (.array [.int 1]) ∧
    (Json.object (applyVariables overlapping taskVariables)).at? ["paths", "store"] =
      some (.string "links.json") := by
  have distinct : (overlapping.map Prod.fst).Nodup := by decide +kernel
  have apart : taskVariables.Pairwise fun a b => lowercaseName a.1 ≠ lowercaseName b.1 := by
    decide +kernel
  obtain ⟨-, -, orderless⟩ := applyVariables_orderless distinct apart
  exact ⟨distinct, apart, orderless _ (List.reverse_perm _), rfl, rfl⟩

end Traceability.Config
