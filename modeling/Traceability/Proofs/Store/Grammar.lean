/-
# Traceability.Proofs.Store.Grammar -- which documents are stores

`Store.IsDocument` writes out what a document has to look like to be a store,
record by record and field by field: which fields there must be, which may be left
out, which may be null, and what may stand in each of them.  Fields with other
names may hold anything.

A document is read exactly if it is of this form, and refused with a fault of its
form otherwise (`Store.ofJson_accepts`).  What a reader gives is described field by
field in `Traceability.Proofs.Store.RoundTrip`; here it is shown that some record is
so described exactly if the fields are right.
-/
import Traceability.Proofs.Store.RoundTrip

namespace Traceability

set_option autoImplicit false

/-! ## Values and fields -/

namespace Json

variable {fields : Fields} {name : String}

def IsString (value : Json) : Prop := ∃ s, value = .string s

def IsStringOrNull (value : Json) : Prop := value = .null ∨ value.IsString

/-- The value is one of the words. -/
def IsOneOf (words : List String) (value : Json) : Prop := ∃ word ∈ words, value = .string word

/-- The value is a list of such items. -/
def IsListOf (item : Json → Prop) (value : Json) : Prop :=
  ∃ items, value = .array items ∧ ∀ one ∈ items, item one

/-- The value is a list of such items that has one at least. -/
def IsFilledListOf (item : Json → Prop) (value : Json) : Prop :=
  ∃ items, value = .array items ∧ items ≠ [] ∧ ∀ one ∈ items, item one

/-- The field is there, with such a value. -/
def Has (fields : Fields) (name : String) (allowed : Json → Prop) : Prop :=
  ∃ value, field? fields name = some value ∧ allowed value

/-- The field is absent, or it has such a value. -/
def MayHave (fields : Fields) (name : String) (allowed : Json → Prop) : Prop :=
  field? fields name = none ∨ Has fields name allowed

end Json

/-! ## The form of a document -/

/-- The fields of a target in a document. -/
structure Target.FieldsFit (fields : Json.Fields) : Prop where
  filePath : Json.Has fields "file_path" Json.IsString
  expectedTag : Json.Has fields "expected_tag" Json.IsString
  language : Json.Has fields "language" (Json.IsOneOf
    ["rust", "cpp", "c", "python", "typescript", "javascript", "go", "java", "ruby", "shell"])
  constructName : Json.MayHave fields "construct_name" Json.IsStringOrNull
  expectedHash : Json.MayHave fields "expected_hash" Json.IsStringOrNull

def Target.IsDocument (value : Json) : Prop := ∃ fields, value = .object fields ∧ FieldsFit fields

/-- The fields of a link in a document. -/
structure Link.FieldsFit (fields : Json.Fields) : Prop where
  matrixId : Json.Has fields "matrix_id" Json.IsString
  sources : Json.Has fields "layer1_sources" (Json.IsFilledListOf Json.IsString)
  targets : Json.Has fields "layer3_targets" (Json.IsFilledListOf Target.IsDocument)
  cardinality : Json.MayHave fields "cardinality" (Json.IsOneOf ["1:1", "1:N", "N:1", "N:M"])
  status : Json.MayHave fields "status" (Json.IsOneOf ["VALID", "BROKEN", "ORPHAN"])
  lastVerified : Json.MayHave fields "last_verified" Json.IsStringOrNull

def Link.IsDocument (value : Json) : Prop := ∃ fields, value = .object fields ∧ FieldsFit fields

/-- The fields of the orphans in a document. -/
structure Orphans.FieldsFit (fields : Json.Fields) : Prop where
  requirements : Json.MayHave fields "unlinked_requirements" (Json.IsListOf Json.IsString)
  tags : Json.MayHave fields "unlinked_code_tags" (Json.IsListOf Json.IsString)

def Orphans.IsDocument (value : Json) : Prop :=
  value = .null ∨ ∃ fields, value = .object fields ∧ FieldsFit fields

/-- The fields of a store in a document. -/
structure Store.FieldsFit (fields : Json.Fields) : Prop where
  links : Json.MayHave fields "links" (Json.IsListOf Link.IsDocument)
  version : Json.MayHave fields "matrix_version" Json.IsString
  orphans : Json.MayHave fields "orphans" Orphans.IsDocument

def Store.IsDocument (value : Json) : Prop := ∃ fields, value = .object fields ∧ FieldsFit fields

/-! ## Fields that some record describes -/

namespace Json

variable {fields : Fields} {name : String}

theorem has_isString_iff :
    Has fields name IsString ↔ ∃ s, field? fields name = some (.string s) := by
  constructor
  · rintro ⟨_, found, s, rfl⟩
    exact ⟨s, found⟩
  · rintro ⟨s, found⟩
    exact ⟨_, found, s, rfl⟩

/-- A field that may be absent, with a default that is allowed, has an allowed value or the
default. -/
theorem mayHave_iff {allowed : Json → Prop} {default : Json} (fallback : allowed default) :
    MayHave fields name allowed ↔ allowed ((field? fields name).getD default) := by
  unfold MayHave Has
  cases field? fields name with
  | none => simp [fallback]
  | some value => simp

theorem isStringOrNull_iff {value : Json} :
    value.IsStringOrNull ↔ ∃ s : Option String, value = ofString? s := by
  constructor
  · rintro (rfl | ⟨s, rfl⟩)
    · exact ⟨none, rfl⟩
    · exact ⟨some s, rfl⟩
  · rintro ⟨_ | s, rfl⟩
    · exact Or.inl rfl
    · exact Or.inr ⟨s, rfl⟩

/-- A value is one of the words of some choices if it is the word of a choice. -/
theorem isOneOf_iff {α : Type} {all : List α} {word : α → String}
    (found : ∀ one, all.find? (word · == word one) = some one) {value : Json} :
    IsOneOf (all.map word) value ↔ ∃ one, value = .string (word one) := by
  constructor
  · rintro ⟨_, among, rfl⟩
    obtain ⟨one, -, rfl⟩ := List.mem_map.1 among
    exact ⟨one, rfl⟩
  · rintro ⟨one, rfl⟩
    exact ⟨_, List.mem_map_of_mem (List.mem_of_find?_eq_some (found one)), rfl⟩

/-- A list of items that can each be read is a list that can be read. -/
theorem exists_forall₂_iff {α : Type} {reads : Json → α → Prop} {items : List Json} :
    (∃ results, List.Forall₂ reads items results) ↔ ∀ item ∈ items, ∃ result, reads item result := by
  induction items with
  | nil => exact ⟨fun _ => nofun, fun _ => ⟨[], .nil⟩⟩
  | cons item rest ih =>
      rw [List.forall_mem_cons, ← ih]
      constructor
      · rintro ⟨_, each⟩
        cases each with
        | cons here later => exact ⟨⟨_, here⟩, _, later⟩
      · rintro ⟨⟨result, here⟩, results, later⟩
        exact ⟨result :: results, .cons here later⟩

/-- Items that are strings are the items of a list of strings. -/
theorem forall_isString_iff {items : List Json} :
    (∀ one ∈ items, one.IsString) ↔ ∃ strings : List String, items = strings.map .string := by
  constructor
  · intro each
    obtain ⟨strings, all⟩ := exists_forall₂_iff.2 each
    have same : List.Forall₂ Eq items (strings.map Json.string) := List.forall₂_map_right_iff.2 all
    rw [List.forall₂_eq_eq_eq] at same
    exact ⟨strings, same⟩
  · rintro ⟨strings, rfl⟩ one member
    obtain ⟨s, -, rfl⟩ := List.mem_map.1 member
    exact ⟨s, rfl⟩

theorem isListOf_isString_iff {value : Json} :
    IsListOf IsString value ↔ ∃ strings, value = ofStrings strings := by
  constructor
  · rintro ⟨items, rfl, each⟩
    obtain ⟨strings, rfl⟩ := forall_isString_iff.1 each
    exact ⟨strings, rfl⟩
  · rintro ⟨strings, rfl⟩
    exact ⟨_, rfl, forall_isString_iff.2 ⟨strings, rfl⟩⟩

theorem isFilledListOf_isString_iff {value : Json} :
    IsFilledListOf IsString value ↔ ∃ strings, strings ≠ [] ∧ value = ofStrings strings := by
  constructor
  · rintro ⟨items, rfl, filled, each⟩
    obtain ⟨strings, rfl⟩ := forall_isString_iff.1 each
    exact ⟨strings, mt List.map_eq_nil_iff.2 filled, rfl⟩
  · rintro ⟨strings, filled, rfl⟩
    exact ⟨_, rfl, mt List.map_eq_nil_iff.1 filled, forall_isString_iff.2 ⟨strings, rfl⟩⟩

end Json

/-! ## Some record is described exactly if the fields are right -/

namespace Target

theorem exists_describes_iff {fields : Json.Fields} :
    (∃ target, Describes fields target) ↔ FieldsFit fields := by
  constructor
  · rintro ⟨target, described⟩
    refine ⟨Json.has_isString_iff.2 ⟨_, described.filePath⟩,
      Json.has_isString_iff.2 ⟨_, described.expectedTag⟩, ⟨_, described.language, ?_⟩, ?_, ?_⟩
    · exact (Json.isOneOf_iff Language.find?_word).2 ⟨_, rfl⟩
    · exact (Json.mayHave_iff (Or.inl rfl)).2 (Json.isStringOrNull_iff.2 ⟨_, described.constructName⟩)
    · exact (Json.mayHave_iff (Or.inl rfl)).2
        (Json.isStringOrNull_iff.2 ⟨_, described.expectedFingerprint⟩)
  · intro fit
    obtain ⟨filePath, hasPath⟩ := Json.has_isString_iff.1 fit.filePath
    obtain ⟨expectedTag, hasTag⟩ := Json.has_isString_iff.1 fit.expectedTag
    obtain ⟨_, hasLanguage, isLanguage⟩ := fit.language
    obtain ⟨language, rfl⟩ := (Json.isOneOf_iff Language.find?_word).1 isLanguage
    obtain ⟨constructName, named⟩ :=
      Json.isStringOrNull_iff.1 ((Json.mayHave_iff (Or.inl rfl)).1 fit.constructName)
    obtain ⟨expectedFingerprint, expected⟩ :=
      Json.isStringOrNull_iff.1 ((Json.mayHave_iff (Or.inl rfl)).1 fit.expectedHash)
    exact ⟨⟨filePath, language, expectedTag, constructName, expectedFingerprint,
      Json.fieldsExcept form.known fields⟩, hasPath, named, hasLanguage, hasTag, expected, rfl⟩

theorem exists_isValue_iff {value : Json} : (∃ target, IsValue value target) ↔ IsDocument value := by
  constructor
  · rintro ⟨target, fields, rfl, described⟩
    exact ⟨fields, rfl, exists_describes_iff.1 ⟨target, described⟩⟩
  · rintro ⟨fields, rfl, fit⟩
    obtain ⟨target, described⟩ := exists_describes_iff.2 fit
    exact ⟨target, fields, rfl, described⟩

end Target

namespace Link

theorem exists_describes_iff {fields : Json.Fields} :
    (∃ link, Describes fields link) ↔ FieldsFit fields := by
  constructor
  · rintro ⟨link, described⟩
    refine ⟨Json.has_isString_iff.2 ⟨_, described.matrixId⟩, ⟨_, described.sources, ?_⟩, ?_, ?_, ?_, ?_⟩
    · exact Json.isFilledListOf_isString_iff.2 ⟨_, described.hasSources, rfl⟩
    · obtain ⟨items, listed, each⟩ := described.targets
      refine ⟨_, listed, items, rfl, ?_, fun one member => ?_⟩
      · rintro rfl
        exact described.hasTargets (List.forall₂_nil_left_iff.1 each)
      · exact Target.exists_isValue_iff.1 (Json.exists_forall₂_iff.1 ⟨_, each⟩ one member)
    · exact (Json.mayHave_iff ⟨"1:1", by decide, rfl⟩).2
        ((Json.isOneOf_iff Cardinality.find?_word).2 ⟨_, described.cardinality⟩)
    · exact (Json.mayHave_iff ⟨"BROKEN", by decide, rfl⟩).2
        ((Json.isOneOf_iff LinkStatus.find?_word).2 ⟨_, described.status⟩)
    · exact (Json.mayHave_iff (Or.inl rfl)).2 (Json.isStringOrNull_iff.2 ⟨_, described.lastVerified⟩)
  · intro fit
    obtain ⟨matrixId, named⟩ := Json.has_isString_iff.1 fit.matrixId
    obtain ⟨_, given, isSources⟩ := fit.sources
    obtain ⟨sources, hasSources, rfl⟩ := Json.isFilledListOf_isString_iff.1 isSources
    obtain ⟨_, listed, items, rfl, filled, each⟩ := fit.targets
    obtain ⟨targets, read⟩ := Json.exists_forall₂_iff.2
      fun one member => Target.exists_isValue_iff.2 (each one member)
    have hasTargets : targets ≠ [] := by
      rintro rfl
      exact filled (List.forall₂_nil_right_iff.1 read)
    obtain ⟨cardinality, related⟩ := (Json.isOneOf_iff Cardinality.find?_word).1
      ((Json.mayHave_iff ⟨"1:1", by decide, rfl⟩).1 fit.cardinality)
    obtain ⟨status, judged⟩ := (Json.isOneOf_iff LinkStatus.find?_word).1
      ((Json.mayHave_iff ⟨"BROKEN", by decide, rfl⟩).1 fit.status)
    obtain ⟨lastVerified, verified⟩ :=
      Json.isStringOrNull_iff.1 ((Json.mayHave_iff (Or.inl rfl)).1 fit.lastVerified)
    exact ⟨⟨matrixId, cardinality, sources, targets, status, lastVerified,
      Json.fieldsExcept form.known fields⟩, named, related, given, hasSources, ⟨items, listed, read⟩,
      hasTargets, judged, verified, rfl⟩

theorem exists_isValue_iff {value : Json} : (∃ link, IsValue value link) ↔ IsDocument value := by
  constructor
  · rintro ⟨link, fields, rfl, described⟩
    exact ⟨fields, rfl, exists_describes_iff.1 ⟨link, described⟩⟩
  · rintro ⟨fields, rfl, fit⟩
    obtain ⟨link, described⟩ := exists_describes_iff.2 fit
    exact ⟨link, fields, rfl, described⟩

end Link

namespace Orphans

theorem exists_isValue_iff {value : Json} : (∃ orphans, IsValue value orphans) ↔ IsDocument value := by
  constructor
  · rintro ⟨orphans, ⟨rfl, -⟩ | ⟨fields, rfl, described⟩⟩
    · exact Or.inl rfl
    · refine Or.inr ⟨fields, rfl, ?_, ?_⟩
      · exact (Json.mayHave_iff ⟨[], rfl, nofun⟩).2
          (Json.isListOf_isString_iff.2 ⟨_, described.unlinkedSources⟩)
      · exact (Json.mayHave_iff ⟨[], rfl, nofun⟩).2
          (Json.isListOf_isString_iff.2 ⟨_, described.unlinkedTags⟩)
  · rintro (rfl | ⟨fields, rfl, fit⟩)
    · exact ⟨_, Or.inl ⟨rfl, rfl⟩⟩
    · obtain ⟨sources, unlinkedSources⟩ :=
        Json.isListOf_isString_iff.1 ((Json.mayHave_iff ⟨[], rfl, nofun⟩).1 fit.requirements)
      obtain ⟨tags, unlinkedTags⟩ :=
        Json.isListOf_isString_iff.1 ((Json.mayHave_iff ⟨[], rfl, nofun⟩).1 fit.tags)
      exact ⟨⟨sources, tags, Json.fieldsExcept form.known fields⟩,
        Or.inr ⟨fields, rfl, unlinkedSources, unlinkedTags, rfl⟩⟩

end Orphans

namespace Store

theorem exists_isValue_iff {value : Json} : (∃ store, IsValue value store) ↔ IsDocument value := by
  constructor
  · rintro ⟨store, fields, rfl, described⟩
    obtain ⟨items, listed, each⟩ := described.links
    refine ⟨fields, rfl, (Json.mayHave_iff ⟨[], rfl, nofun⟩).2 ⟨items, listed, fun one member => ?_⟩,
      (Json.mayHave_iff ⟨"1.0", rfl⟩).2 ⟨_, described.version⟩,
      (Json.mayHave_iff (Or.inl rfl)).2 (Orphans.exists_isValue_iff.1 ⟨_, described.orphans⟩)⟩
    exact Link.exists_isValue_iff.1 (Json.exists_forall₂_iff.1 ⟨_, each⟩ one member)
  · rintro ⟨fields, rfl, fit⟩
    obtain ⟨items, listed, each⟩ := (Json.mayHave_iff ⟨[], rfl, nofun⟩).1 fit.links
    obtain ⟨links, read⟩ := Json.exists_forall₂_iff.2
      fun one member => Link.exists_isValue_iff.2 (each one member)
    obtain ⟨version, given⟩ := (Json.mayHave_iff ⟨"1.0", rfl⟩).1 fit.version
    obtain ⟨orphans, isOrphans⟩ :=
      Orphans.exists_isValue_iff.2 ((Json.mayHave_iff (Or.inl rfl)).1 fit.orphans)
    exact ⟨⟨version, links, orphans, Json.fieldsExcept form.known fields⟩, fields, rfl, given,
      ⟨items, listed, read⟩, isOrphans, rfl⟩

end Store

/-! ## Faults -/

/-- A fault of what a document says, and not of the file that holds it. -/
def StoreFault.IsOfForm (fault : StoreFault) : Prop := ∀ path cause, fault ≠ .unreadable path cause

theorem choice_failsWith {α : Type} (all : List α) (word : α → String) (place : String)
    (value : Json) : FailsWith StoreFault.IsOfForm (choice all word place value) := by
  unfold choice
  split
  · exact .ok _
  · exact .error nofun

theorem Target.ofJson_failsWith (place : String) (value : Json) :
    FailsWith StoreFault.IsOfForm (Target.ofJson place value) := by
  have field : ∀ fault : FieldFault, (StoreFault.field place fault).IsOfForm := fun _ => nofun
  unfold Target.ofJson
  split
  · refine .bind (.mapError field) fun word => ?_
    refine .bind (choice_failsWith _ _ _ _) fun language => ?_
    refine .bind (.mapError field) fun filePath => ?_
    refine .bind (.mapError field) fun expectedTag => ?_
    refine .bind (.mapError field) fun constructName => ?_
    refine .bind (.mapError field) fun expectedFingerprint => ?_
    exact .ok _
  · exact .error nofun

theorem Link.ofJson_failsWith (place : String) (value : Json) :
    FailsWith StoreFault.IsOfForm (Link.ofJson place value) := by
  have field : ∀ place (fault : FieldFault), (StoreFault.field place fault).IsOfForm := fun _ _ => nofun
  unfold Link.ofJson
  split
  · refine .bind (.mapError (field _)) fun matrixId => ?_
    refine .bind (.mapError (field _)) fun items => ?_
    split
    · split
      · exact .error nofun
      · refine .bind (.mapError (field _)) fun targetItems => ?_
        split
        · exact .error nofun
        · refine .bind (.mapM (fun _ => Target.ofJson_failsWith _ _) _) fun targets => ?_
          refine .bind (choice_failsWith _ _ _ _) fun cardinality => ?_
          refine .bind (choice_failsWith _ _ _ _) fun status => ?_
          refine .bind (.mapError (field _)) fun lastVerified => ?_
          exact .ok _
    · exact .error nofun
  · exact .error nofun

theorem Orphans.ofJson_failsWith (value : Json) :
    FailsWith StoreFault.IsOfForm (Orphans.ofJson value) := by
  have strings : ∀ fields name, FailsWith StoreFault.IsOfForm (stringsField fields name) := by
    intro fields name
    unfold stringsField
    split
    · exact .ok []
    · split
      · exact .ok _
      · exact .error nofun
  unfold ofJson
  split
  · exact .ok _
  · exact .bind (strings _ _) fun sources => .bind (strings _ _) fun tags => .ok _
  · exact .error nofun

theorem Store.ofJson_failsWith (document : Json) :
    FailsWith StoreFault.IsOfForm (Store.ofJson document) := by
  unfold ofJson
  split
  · split
    · split
      · refine .bind (.mapM (fun _ => Link.ofJson_failsWith _ _) _) fun links => ?_
        exact .bind (Orphans.ofJson_failsWith _) fun orphans => .ok _
      · exact .error nofun
    · exact .error nofun
  · exact .error nofun

/-- **A document is read as a store exactly if it has the form of one**, and is refused with a fault
of its form otherwise. -/
theorem Store.ofJson_accepts (document : Json) :
    ((∃ store, ofJson document = .ok store) ↔ IsDocument document) ∧
    ((∃ fault, ofJson document = .error fault ∧ fault.IsOfForm) ↔ ¬ IsDocument document) := by
  have accepts : (∃ store, ofJson document = .ok store) ↔ IsDocument document := by
    rw [← exists_isValue_iff]
    simp only [ofJson_eq_ok_iff]
  refine ⟨accepts, ?_⟩
  rw [← accepts]
  cases read : ofJson document with
  | ok store => exact iff_of_false (fun ⟨_, same, _⟩ => nomatch same) fun none => none ⟨store, rfl⟩
  | error fault =>
      refine iff_of_true ⟨fault, rfl, ?_⟩ fun ⟨_, same⟩ => nomatch same
      exact ofJson_failsWith document fault read

end Traceability
