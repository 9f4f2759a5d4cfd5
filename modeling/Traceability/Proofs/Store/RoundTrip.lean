/-
# Traceability.Proofs.Store.RoundTrip -- a store that is read and written again

For each kind of record, `Describes` says field by field which record an object
reads as, and the reader succeeds exactly on that (`Target.ofJson_eq_ok_iff`,
`Link.ofJson_eq_ok_iff`, `Orphans.ofJson_eq_ok_iff`, `Store.ofJson_eq_ok_iff`).  What
is written for a record describes it again, so reading what was written gives
the record back (`Store.ofJson_toJson`), and the written document has kept what
the first one said (`Store.ofJson_keeps`).
-/
import Traceability.Proofs.Json.Record
import Traceability.Store.Document

namespace Traceability

set_option autoImplicit false

/-! ## Forms -/

/-- The fields of a target. -/
def Target.form : RecordForm where
  known := ["file_path", "construct_name", "language", "expected_tag", "expected_hash"]
  optional := ["construct_name", "expected_hash"]
  defaults := []
  distinct := by decide
  optional_known := by decide
  defaults_known := nofun

/-- The fields of a link. -/
def Link.form : RecordForm where
  known := ["matrix_id", "cardinality", "layer1_sources", "layer3_targets", "status",
    "last_verified"]
  optional := ["last_verified"]
  defaults := [("cardinality", .string "1:1"), ("status", .string "BROKEN")]
  distinct := by decide
  optional_known := by decide
  defaults_known := by simp

/-- The fields of the orphans. -/
def Orphans.form : RecordForm where
  known := ["unlinked_requirements", "unlinked_code_tags"]
  optional := []
  defaults := [("unlinked_requirements", .array []), ("unlinked_code_tags", .array [])]
  distinct := by decide
  optional_known := nofun
  defaults_known := by simp

/-- The record of orphans that stands where there are none. -/
def Orphans.none : Json :=
  .object [("unlinked_requirements", .array []), ("unlinked_code_tags", .array [])]

/-- The fields of a store. -/
def Store.form : RecordForm where
  known := ["matrix_version", "links", "orphans"]
  optional := []
  defaults := [("matrix_version", .string "1.0"), ("links", .array []),
    ("orphans", Orphans.none)]
  distinct := by decide
  optional_known := nofun
  defaults_known := by simp

/-! ## Choices -/

theorem choice_eq_ok_iff {α : Type} {all : List α} {word : α → String} {place : String}
    {value : Json} {one : α} (found : ∀ one, all.find? (word · == word one) = some one) :
    choice all word place value = .ok one ↔ value = .string (word one) := by
  unfold choice
  constructor
  · intro chosen
    cases value with
    | string s =>
        simp only [Json.string?, Option.bind_some] at chosen
        cases held : all.find? (word · == s) with
        | none => simp [held] at chosen
        | some other =>
            simp only [held, Except.ok.injEq] at chosen
            subst chosen
            have same := List.find?_some held
            rw [beq_iff_eq] at same
            rw [same]
    | _ => simp [Json.string?] at chosen
  · rintro rfl
    simp only [Json.string?, Option.bind_some, found one]

theorem Language.find?_word (language : Language) :
    Language.all.find? (·.word == language.word) = some language := by
  cases language <;> rfl

theorem Cardinality.find?_word (cardinality : Cardinality) :
    Cardinality.all.find? (·.word == cardinality.word) = some cardinality := by
  cases cardinality <;> rfl

theorem LinkStatus.find?_word (status : LinkStatus) :
    LinkStatus.all.find? (·.word == status.word) = some status := by
  cases status <;> rfl

theorem Json.getD_map_string (value : Option String) :
    (value.map Json.string).getD .null = Json.ofString? value := by
  cases value <;> rfl

/-! ## Targets -/

namespace Target

/-- The fields are those of the target. -/
structure Describes (fields : Json.Fields) (target : Target) : Prop where
  filePath : Json.field? fields "file_path" = some (.string target.filePath)
  constructName : (Json.field? fields "construct_name").getD .null =
    Json.ofString? target.constructName
  language : Json.field? fields "language" = some (.string target.language.word)
  expectedTag : Json.field? fields "expected_tag" = some (.string target.expectedTag)
  expectedFingerprint : (Json.field? fields "expected_hash").getD .null =
    Json.ofString? target.expectedFingerprint
  extras : target.extras = Json.fieldsExcept form.known fields

/-- The value is an object with the fields of the target. -/
def IsValue (value : Json) (target : Target) : Prop :=
  ∃ fields, value = .object fields ∧ Describes fields target

theorem ofJson_eq_ok_iff (place : String) (value : Json) (target : Target) :
    ofJson place value = .ok target ↔ IsValue value target := by
  unfold ofJson IsValue
  cases value with
  | object fields =>
      simp only [bind_eq_ok_iff, mapError_eq_ok_iff, Json.requireString_eq_ok_iff,
        Json.optionalString_eq_ok_iff, choice_eq_ok_iff Language.find?_word, Json.object.injEq,
        exists_eq_left', Json.string.injEq]
      constructor
      · rintro ⟨_, language, _, rfl, _, filePath, _, expectedTag, _, constructName, _,
          expectedFingerprint, made⟩
        cases made
        exact ⟨filePath, constructName, language, expectedTag, expectedFingerprint, rfl⟩
      · intro described
        refine ⟨_, described.language, _, rfl, _, described.filePath, _, described.expectedTag, _,
          described.constructName, _, described.expectedFingerprint, ?_⟩
        exact congrArg (fun extras => Except.ok { target with extras }) described.extras.symm
  | _ => simp [throw_eq_ok_iff]

/-- The known fields of a target with their values. -/
def slots (target : Target) : List (String × Option Json) :=
  [("file_path", some (.string target.filePath)),
    ("construct_name", target.constructName.map .string),
    ("language", some (.string target.language.word)),
    ("expected_tag", some (.string target.expectedTag)),
    ("expected_hash", target.expectedFingerprint.map .string)]

theorem toJson_eq (target : Target) :
    target.toJson = .object (Json.written target.slots ++ target.extras) := by
  cases named : target.constructName <;> cases expected : target.expectedFingerprint <;>
    simp [toJson, slots, Json.written, optionalField, named, expected]

theorem isValue_toJson {target : Target}
    (free : ∀ field ∈ target.extras, field.1 ∉ form.known) : IsValue target.toJson target := by
  have held : ∀ name value, (name, value) ∈ target.slots →
      Json.field? (Json.written target.slots ++ target.extras) name = value :=
    fun name value member => RecordForm.field?_of_slot rfl free member
  refine ⟨_, target.toJson_eq, ?_, ?_, ?_, ?_, ?_, ?_⟩
  · exact held _ _ (by simp [slots])
  · rw [held _ (target.constructName.map .string) (by simp [slots]), Json.getD_map_string]
  · exact held _ _ (by simp [slots])
  · exact held _ _ (by simp [slots])
  · rw [held _ (target.expectedFingerprint.map .string) (by simp [slots]), Json.getD_map_string]
  · exact (RecordForm.fieldsExcept_written_append rfl free).symm

/-- What a target was, and what is written for it. -/
def Keeps : Json → Json → Prop := form.KeepsValue fun _ => Eq

theorem IsValue.free {value : Json} {target : Target} (read : IsValue value target) :
    ∀ field ∈ target.extras, field.1 ∉ form.known := by
  obtain ⟨fields, rfl, described⟩ := read
  rw [described.extras]
  exact fun field member => Json.not_mem_of_mem_fieldsExcept member

theorem IsValue.keeps {value : Json} {target : Target} (read : IsValue value target) :
    Keeps value target.toJson := by
  obtain ⟨fields, rfl, described⟩ := read
  refine ⟨fields, _, rfl, target.toJson_eq, ?_⟩
  rw [described.extras]
  refine RecordForm.keeps_written rfl (fun _ _ _ => rfl) ?_
  simp only [slots, List.forall_mem_cons, List.not_mem_nil, false_imp_iff, implies_true, and_true]
  refine ⟨?_, ?_, ?_, ?_, ?_⟩
  · exact .required described.filePath (by decide) rfl
  · exact .ofOptional (by decide) rfl (fun _ => rfl) described.constructName
  · exact .required described.language (by decide) rfl
  · exact .required described.expectedTag (by decide) rfl
  · exact .ofOptional (by decide) rfl (fun _ => rfl) described.expectedFingerprint

end Target

/-! ## Links -/

namespace Link

/-- The fields are those of the link. -/
structure Describes (fields : Json.Fields) (link : Link) : Prop where
  matrixId : Json.field? fields "matrix_id" = some (.string link.matrixId)
  cardinality : (Json.field? fields "cardinality").getD (.string "1:1") =
    .string link.cardinality.word
  sources : Json.field? fields "layer1_sources" = some (Json.ofStrings link.sources)
  hasSources : link.sources ≠ []
  targets : ∃ items, Json.field? fields "layer3_targets" = some (.array items) ∧
    List.Forall₂ Target.IsValue items link.targets
  hasTargets : link.targets ≠ []
  status : (Json.field? fields "status").getD (.string "BROKEN") = .string link.status.word
  lastVerified : (Json.field? fields "last_verified").getD .null =
    Json.ofString? link.lastVerified
  extras : link.extras = Json.fieldsExcept form.known fields

/-- The value is an object with the fields of the link. -/
def IsValue (value : Json) (link : Link) : Prop :=
  ∃ fields, value = .object fields ∧ Describes fields link

theorem ofJson_eq_ok_iff (place : String) (value : Json) (link : Link) :
    ofJson place value = .ok link ↔ IsValue value link := by
  unfold ofJson IsValue
  cases value with
  | object fields =>
      simp only [bind_eq_ok_iff, mapError_eq_ok_iff, Json.requireString_eq_ok_iff,
        Json.requireList_eq_ok_iff, Json.object.injEq, exists_eq_left']
      constructor
      · rintro ⟨matrixId, named, items, given, rest⟩
        split at rest
        next sources strings =>
          simp only [bind_eq_ok_iff, mapError_eq_ok_iff, unless_eq_ok_iff,
            Json.requireList_eq_ok_iff, Json.optionalString_eq_ok_iff,
            choice_eq_ok_iff Cardinality.find?_word, choice_eq_ok_iff LinkStatus.find?_word,
            List.isEmpty_iff] at rest
          obtain ⟨hasSources, targetItems, listed, hasItems, targets, readTargets, cardinality,
            related, status, judged, lastVerified, verified, made⟩ := rest
          cases made
          have read := (mapM_zipIdx_eq_ok_iff (fun _ _ => Target.ofJson_eq_ok_iff _ _) _ _ _).1
            readTargets
          have hasTargets : targets ≠ [] := by
            rintro rfl
            exact hasItems (List.forall₂_nil_right_iff.1 read)
          rw [Json.mapM_string?_eq_some_iff.1 strings] at given
          exact ⟨named, related, given, hasSources, ⟨targetItems, listed, read⟩, hasTargets, judged,
            verified, rfl⟩
        next => simp only [throw_eq_ok_iff] at rest
      · intro described
        obtain ⟨items, listed, read⟩ := described.targets
        have hasItems : items ≠ [] := by
          rintro rfl
          exact described.hasTargets (List.forall₂_nil_left_iff.1 read)
        refine ⟨_, described.matrixId, _, described.sources, ?_⟩
        rw [Json.mapM_string?_eq_some_iff.2 rfl]
        simp only [bind_eq_ok_iff, mapError_eq_ok_iff, unless_eq_ok_iff,
            Json.requireList_eq_ok_iff, Json.optionalString_eq_ok_iff,
            choice_eq_ok_iff Cardinality.find?_word, choice_eq_ok_iff LinkStatus.find?_word,
            List.isEmpty_iff]
        refine ⟨described.hasSources, items, listed, hasItems, _,
          (mapM_zipIdx_eq_ok_iff (fun _ _ => Target.ofJson_eq_ok_iff _ _) _ _ _).2 read, _,
          described.cardinality, _, described.status, _, described.lastVerified, ?_⟩
        exact congrArg (fun extras => Except.ok { link with extras }) described.extras.symm
  | _ => simp [throw_eq_ok_iff]

/-- The known fields of a link with their values. -/
def slots (link : Link) : List (String × Option Json) :=
  [("matrix_id", some (.string link.matrixId)),
    ("cardinality", some (.string link.cardinality.word)),
    ("layer1_sources", some (Json.ofStrings link.sources)),
    ("layer3_targets", some (.array (link.targets.map Target.toJson))),
    ("status", some (.string link.status.word)),
    ("last_verified", link.lastVerified.map .string)]

theorem toJson_eq (link : Link) :
    link.toJson = .object (Json.written link.slots ++ link.extras) := by
  cases verified : link.lastVerified <;>
    simp [toJson, slots, Json.written, optionalField, verified]

/-- A link that some document can hold: it has sources and targets, and none of its other fields
has the name of a known one. -/
structure WellFormed (link : Link) : Prop where
  hasSources : link.sources ≠ []
  hasTargets : link.targets ≠ []
  targets : ∀ target ∈ link.targets, ∀ field ∈ target.extras, field.1 ∉ Target.form.known
  free : ∀ field ∈ link.extras, field.1 ∉ form.known

theorem isValue_toJson {link : Link} (wellFormed : link.WellFormed) :
    IsValue link.toJson link := by
  have held : ∀ name value, (name, value) ∈ link.slots →
      Json.field? (Json.written link.slots ++ link.extras) name = value :=
    fun name value member => RecordForm.field?_of_slot rfl wellFormed.free member
  refine ⟨_, link.toJson_eq, ?_, ?_, ?_, wellFormed.hasSources,
    ⟨link.targets.map Target.toJson, ?_, ?_⟩, wellFormed.hasTargets, ?_, ?_, ?_⟩
  · exact held _ _ (by simp [slots])
  · rw [held _ (some (.string link.cardinality.word)) (by simp [slots]), Option.getD_some]
  · exact held _ _ (by simp [slots])
  · exact held _ _ (by simp [slots])
  · rw [List.forall₂_map_left_iff, List.forall₂_same]
    exact fun target member => Target.isValue_toJson (wellFormed.targets target member)
  · rw [held _ (some (.string link.status.word)) (by simp [slots]), Option.getD_some]
  · rw [held _ (link.lastVerified.map .string) (by simp [slots]), Json.getD_map_string]
  · exact (RecordForm.fieldsExcept_written_append rfl wellFormed.free).symm

theorem IsValue.wellFormed {value : Json} {link : Link} (read : IsValue value link) :
    link.WellFormed := by
  obtain ⟨fields, rfl, described⟩ := read
  obtain ⟨items, listed, targets⟩ := described.targets
  refine ⟨described.hasSources, described.hasTargets, fun target member => ?_, ?_⟩
  · obtain ⟨item, _, read⟩ := exists_of_mem_right targets member
    exact read.free
  · rw [described.extras]
    exact fun field member => Json.not_mem_of_mem_fieldsExcept member

/-- Which values of a field of a link count as the same: those of the targets one by one. -/
def SameField (name : String) (old new : Json) : Prop :=
  if name = "layer3_targets" then Json.Itemwise Target.Keeps old new else old = new

/-- What a link was, and what is written for it. -/
def Keeps : Json → Json → Prop := form.KeepsValue SameField

theorem SameField.of_eq {name : String} (apart : name ≠ "layer3_targets") {old new : Json}
    (equal : old = new) : SameField name old new := by
  rwa [SameField, if_neg apart]

theorem IsValue.keeps {value : Json} {link : Link} (read : IsValue value link) :
    Keeps value link.toJson := by
  obtain ⟨fields, rfl, described⟩ := read
  refine ⟨fields, _, rfl, link.toJson_eq, ?_⟩
  rw [described.extras]
  refine RecordForm.keeps_written rfl ?_ ?_
  · intro name unknown value
    refine .of_eq ?_ rfl
    rintro rfl
    exact unknown (by decide)
  · simp only [slots, List.forall_mem_cons, List.not_mem_nil, false_imp_iff, implies_true, and_true]
    refine ⟨?_, ?_, ?_, ?_, ?_, ?_⟩
    · exact .required described.matrixId (by decide) (.of_eq (by decide) rfl)
    · exact .ofDefault rfl (by decide) (fun _ => .of_eq (by decide) rfl) described.cardinality
    · exact .required described.sources (by decide) (.of_eq (by decide) rfl)
    · obtain ⟨items, listed, targets⟩ := described.targets
      refine .required listed (by decide) ?_
      rw [SameField, if_pos rfl]
      refine .arrays ?_
      rw [List.forall₂_map_right_iff]
      exact targets.imp fun _ _ read => read.keeps
    · exact .ofDefault rfl (by decide) (fun _ => .of_eq (by decide) rfl) described.status
    · exact .ofOptional (by decide) rfl (fun _ => .of_eq (by decide) rfl) described.lastVerified

end Link

/-! ## Orphans -/

namespace Orphans

/-- The fields are those of the orphans. -/
structure Describes (fields : Json.Fields) (orphans : Orphans) : Prop where
  unlinkedSources : (Json.field? fields "unlinked_requirements").getD (.array []) =
    Json.ofStrings orphans.unlinkedSources
  unlinkedTags : (Json.field? fields "unlinked_code_tags").getD (.array []) =
    Json.ofStrings orphans.unlinkedTags
  extras : orphans.extras = Json.fieldsExcept form.known fields

/-- The value is an object with the fields of the orphans, or stands for none. -/
def IsValue (value : Json) (orphans : Orphans) : Prop :=
  (value = .null ∧ orphans = ⟨[], [], []⟩) ∨ ∃ fields, value = .object fields ∧
    Describes fields orphans

theorem stringsField_eq_ok_iff {fields : Json.Fields} {name : String} {strings : List String} :
    stringsField fields name = .ok strings ↔
      (Json.field? fields name).getD (.array []) = Json.ofStrings strings := by
  unfold stringsField
  cases Json.field? fields name with
  | none => cases strings <;> simp [Json.ofStrings]
  | some value =>
      rw [Option.getD_some, ← Json.strings?_eq_some_iff]
      cases read : value.strings? with
      | none => simp [read]
      | some found => simp [read]

theorem ofJson_eq_ok_iff (value : Json) (orphans : Orphans) :
    ofJson value = .ok orphans ↔ IsValue value orphans := by
  unfold ofJson IsValue
  cases value with
  | null => simp [eq_comm]
  | object fields =>
      simp only [bind_eq_ok_iff, stringsField_eq_ok_iff, Json.object.injEq, exists_eq_left',
        reduceCtorEq, false_and, false_or]
      constructor
      · rintro ⟨_, sources, _, tags, made⟩
        cases made
        exact ⟨sources, tags, rfl⟩
      · intro described
        refine ⟨_, described.unlinkedSources, _, described.unlinkedTags, ?_⟩
        exact congrArg (fun extras => Except.ok { orphans with extras }) described.extras.symm
  | _ => simp

/-- The known fields of the orphans with their values. -/
def slots (orphans : Orphans) : List (String × Option Json) :=
  [("unlinked_requirements", some (Json.ofStrings orphans.unlinkedSources)),
    ("unlinked_code_tags", some (Json.ofStrings orphans.unlinkedTags))]

theorem toJson_eq (orphans : Orphans) :
    orphans.toJson = .object (Json.written orphans.slots ++ orphans.extras) :=
  rfl

theorem isValue_toJson {orphans : Orphans}
    (free : ∀ field ∈ orphans.extras, field.1 ∉ form.known) : IsValue orphans.toJson orphans := by
  have held : ∀ name value, (name, some value) ∈ orphans.slots →
      (Json.field? (Json.written orphans.slots ++ orphans.extras) name).getD (.array []) = value :=
    fun name value member => by
      have known : orphans.slots.map Prod.fst = form.known := rfl
      rw [RecordForm.field?_of_slot known free member, Option.getD_some]
  refine .inr ⟨_, orphans.toJson_eq, ?_, ?_, ?_⟩
  · exact held _ _ (by simp [slots])
  · exact held _ _ (by simp [slots])
  · exact (RecordForm.fieldsExcept_written_append rfl free).symm

theorem IsValue.free {value : Json} {orphans : Orphans} (read : IsValue value orphans) :
    ∀ field ∈ orphans.extras, field.1 ∉ form.known := by
  obtain ⟨-, rfl⟩ | ⟨fields, rfl, described⟩ := read
  · exact nofun
  · rw [described.extras]
    exact fun field member => Json.not_mem_of_mem_fieldsExcept member

/-- What orphans were, and what is written for them. -/
def Keeps (old new : Json) : Prop :=
  (old = .null ∧ new = Orphans.none) ∨ form.KeepsValue (fun _ => Eq) old new

theorem IsValue.keeps {value : Json} {orphans : Orphans} (read : IsValue value orphans) :
    Keeps value orphans.toJson := by
  obtain ⟨rfl, rfl⟩ | ⟨fields, rfl, described⟩ := read
  · exact .inl ⟨rfl, rfl⟩
  · refine .inr ⟨fields, _, rfl, orphans.toJson_eq, ?_⟩
    rw [described.extras]
    refine RecordForm.keeps_written rfl (fun _ _ _ => rfl) ?_
    simp only [slots, List.forall_mem_cons, List.not_mem_nil, false_imp_iff, implies_true, and_true]
    refine ⟨?_, ?_⟩
    · exact .ofDefault rfl (by decide) (fun _ => rfl) described.unlinkedSources
    · exact .ofDefault rfl (by decide) (fun _ => rfl) described.unlinkedTags

end Orphans

/-! ## Stores -/

namespace Store

/-- The fields are those of the store. -/
structure Describes (fields : Json.Fields) (store : Store) : Prop where
  version : (Json.field? fields "matrix_version").getD (.string "1.0") = .string store.version
  links : ∃ items, (Json.field? fields "links").getD (.array []) = .array items ∧
    List.Forall₂ Link.IsValue items store.links
  orphans : Orphans.IsValue ((Json.field? fields "orphans").getD .null) store.orphans
  extras : store.extras = Json.fieldsExcept form.known fields

/-- The value is an object with the fields of the store. -/
def IsValue (value : Json) (store : Store) : Prop :=
  ∃ fields, value = .object fields ∧ Describes fields store

theorem ofJson_eq_ok_iff (document : Json) (store : Store) :
    ofJson document = .ok store ↔ IsValue document store := by
  unfold ofJson IsValue
  cases document with
  | object fields =>
      simp only [Json.object.injEq, exists_eq_left']
      constructor
      · intro read
        split at read
        next items listed =>
          split at read
          next version given =>
            simp only [bind_eq_ok_iff, Orphans.ofJson_eq_ok_iff] at read
            obtain ⟨links, readLinks, orphans, readOrphans, made⟩ := read
            cases made
            have each := (mapM_zipIdx_eq_ok_iff (fun _ _ => Link.ofJson_eq_ok_iff _ _) _ _ _).1
              readLinks
            exact ⟨given, ⟨items, listed, each⟩, readOrphans, rfl⟩
          next => simp only [throw_eq_ok_iff] at read
        next => simp only [throw_eq_ok_iff] at read
      · intro described
        obtain ⟨items, listed, each⟩ := described.links
        simp only [listed, show _ = Json.string store.version from described.version,
          currentVersion, bind_eq_ok_iff, Orphans.ofJson_eq_ok_iff]
        refine ⟨_, (mapM_zipIdx_eq_ok_iff (fun _ _ => Link.ofJson_eq_ok_iff _ _) _ _ _).2 each, _,
          described.orphans, ?_⟩
        exact congrArg (fun extras => Except.ok { store with extras }) described.extras.symm
  | _ => simp [throw_eq_ok_iff]

/-- The known fields of a store with their values. -/
def slots (store : Store) : List (String × Option Json) :=
  [("matrix_version", some (.string store.version)),
    ("links", some (.array (store.links.map Link.toJson))),
    ("orphans", some store.orphans.toJson)]

theorem toJson_eq (store : Store) :
    store.toJson = .object (Json.written store.slots ++ store.extras) :=
  rfl

/-- A store that some document can hold. -/
structure WellFormed (store : Store) : Prop where
  links : ∀ link ∈ store.links, link.WellFormed
  orphans : ∀ field ∈ store.orphans.extras, field.1 ∉ Orphans.form.known
  free : ∀ field ∈ store.extras, field.1 ∉ form.known

theorem wellFormed_empty : empty.WellFormed :=
  ⟨nofun, nofun, nofun⟩

theorem wellFormed_of_ofJson {document : Json} {store : Store}
    (read : ofJson document = .ok store) : store.WellFormed := by
  obtain ⟨fields, rfl, described⟩ := (ofJson_eq_ok_iff _ _).1 read
  obtain ⟨items, listed, each⟩ := described.links
  refine ⟨fun link member => ?_, described.orphans.free, ?_⟩
  · obtain ⟨item, _, read⟩ := exists_of_mem_right each member
    exact read.wellFormed
  · rw [described.extras]
    exact fun field member => Json.not_mem_of_mem_fieldsExcept member

/-- What is written for a store reads as that store. -/
theorem ofJson_toJson {store : Store} (wellFormed : store.WellFormed) :
    ofJson store.toJson = .ok store := by
  have held : ∀ name value default, (name, some value) ∈ store.slots →
      (Json.field? (Json.written store.slots ++ store.extras) name).getD default = value :=
    fun name value default member => by
      have known : store.slots.map Prod.fst = form.known := rfl
      rw [RecordForm.field?_of_slot known wellFormed.free member, Option.getD_some]
  rw [ofJson_eq_ok_iff]
  refine ⟨_, store.toJson_eq, ?_, ⟨store.links.map Link.toJson, ?_, ?_⟩, ?_, ?_⟩
  · exact held _ _ _ (by simp [slots])
  · exact held _ _ _ (by simp [slots])
  · rw [List.forall₂_map_left_iff, List.forall₂_same]
    exact fun link member => Link.isValue_toJson (wellFormed.links link member)
  · rw [held _ store.orphans.toJson _ (by simp [slots])]
    exact Orphans.isValue_toJson wellFormed.orphans
  · exact (RecordForm.fieldsExcept_written_append rfl wellFormed.free).symm

/-- Which values of a field of a store count as the same: those of the links one by one, and
null where there are no orphans. -/
def SameField (name : String) (old new : Json) : Prop :=
  if name = "links" then Json.Itemwise Link.Keeps old new
  else if name = "orphans" then Orphans.Keeps old new
  else old = new

/-- What a store was, and what is written for it. -/
def Keeps : Json → Json → Prop := form.KeepsValue SameField

theorem SameField.of_eq {name : String} (noLinks : name ≠ "links") (noOrphans : name ≠ "orphans")
    {old new : Json} (equal : old = new) : SameField name old new := by
  rwa [SameField, if_neg noLinks, if_neg noOrphans]

theorem IsValue.keeps {document : Json} {store : Store} (read : IsValue document store) :
    Keeps document store.toJson := by
  obtain ⟨fields, rfl, described⟩ := read
  refine ⟨fields, _, rfl, store.toJson_eq, ?_⟩
  rw [described.extras]
  refine RecordForm.keeps_written rfl ?_ ?_
  · intro name unknown value
    refine .of_eq ?_ ?_ rfl <;>
    · rintro rfl
      exact unknown (by decide)
  · simp only [slots, List.forall_mem_cons, List.not_mem_nil, false_imp_iff, implies_true, and_true]
    refine ⟨?_, ?_, ?_⟩
    · exact .ofDefault rfl (by decide) (fun _ => .of_eq (by decide) (by decide) rfl)
        described.version
    · obtain ⟨items, listed, each⟩ := described.links
      refine .always rfl (by decide) ?_ ?_
      · intro old held
        rw [held, Option.getD_some] at listed
        rw [listed, SameField, if_pos rfl]
        refine .arrays ?_
        rw [List.forall₂_map_right_iff]
        exact each.imp fun _ _ read => read.keeps
      · intro missing
        rw [missing, Option.getD_none, Json.array.injEq] at listed
        rw [← listed, List.forall₂_nil_left_iff] at each
        rw [each, List.map_nil]
    · have orphans := described.orphans
      refine .always rfl (by decide) ?_ ?_
      · intro old held
        rw [held, Option.getD_some] at orphans
        rw [SameField, if_neg (by decide), if_pos rfl]
        exact orphans.keeps
      · intro missing
        rw [missing, Option.getD_none] at orphans
        obtain ⟨_, none⟩ | ⟨_, absurd, _⟩ := orphans
        · rw [none]
          rfl
        · cases absurd

/-- **Reading a store and writing it again loses nothing.**  What was written reads as the same
store, and it has kept every field of every record, apart from what the forms of the records say
about nulls and defaults. -/
theorem ofJson_roundTrip {document : Json} {store : Store} (read : ofJson document = .ok store) :
    ofJson store.toJson = .ok store ∧ Keeps document store.toJson :=
  ⟨ofJson_toJson (wellFormed_of_ofJson read), ((ofJson_eq_ok_iff _ _).1 read).keeps⟩

/-- A document with fields that are missing, null and not known. -/
def sparseDocument : Json :=
  .object [("team", .string "core"), ("orphans", .null), ("links", .array [.object
    [("note", .int 3), ("matrix_id", .string "M"), ("last_verified", .null),
      ("layer1_sources", .array [.string "R1"]),
      ("layer3_targets", .array [.object [("owner", .null), ("language", .string "python"),
        ("construct_name", .null), ("file_path", .string "f.py"),
        ("expected_tag", .string "# R1")]])]])]

/-- What `sparseDocument` reads as. -/
def sparseStore : Store :=
  ⟨"1.0", [⟨"M", .oneToOne, ["R1"], [⟨"f.py", .python, "# R1", none, none, [("owner", .null)]⟩],
    .broken, none, [("note", .int 3)]⟩], ⟨[], [], []⟩, [("team", .string "core")]⟩

theorem ofJson_roundTrip_sparse : ofJson sparseDocument = .ok sparseStore ∧
    ofJson sparseStore.toJson = .ok sparseStore ∧ Keeps sparseDocument sparseStore.toJson :=
  ⟨rfl, ofJson_roundTrip rfl⟩

example : sparseStore.toJson = .object [("matrix_version", .string "1.0"),
    ("links", .array [.object [("matrix_id", .string "M"), ("cardinality", .string "1:1"),
      ("layer1_sources", .array [.string "R1"]),
      ("layer3_targets", .array [.object [("file_path", .string "f.py"),
        ("language", .string "python"), ("expected_tag", .string "# R1"), ("owner", .null)]]),
      ("status", .string "BROKEN"), ("note", .int 3)]]),
    ("orphans", Orphans.none), ("team", .string "core")] := rfl

end Store

end Traceability
