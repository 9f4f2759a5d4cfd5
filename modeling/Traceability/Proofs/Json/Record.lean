/-
# Traceability.Proofs.Json.Record -- reading a record and writing it again

A record has known fields and others.  Written, it has those known fields that
have a value, in the order of the record's form, and the others after them
(`Json.written`).  `RecordForm.Keeps` says what has become of a record that was
read and written: of each field whether it was kept, left out or set to its
default (`RecordForm.Becomes`), and that the others follow the known ones in
their order.  It is enough to look at the known fields one by one
(`RecordForm.keeps_written`).

The readers of fields succeed exactly on what they stand for, whatever place
their faults would name.
-/
import Mathlib.Data.List.Forall2
import Traceability.Document
import Traceability.Proofs.Fallible

namespace Traceability

set_option autoImplicit false

/-! ## Readers -/

section

variable {α β ε : Type}

/-- A reader of items succeeds when it reads each of them. -/
theorem mapM_eq_ok_iff {read : α → Except ε β} {items : List α} {results : List β} :
    items.mapM read = .ok results ↔
      List.Forall₂ (fun item result => read item = .ok result) items results := by
  induction items generalizing results with
  | nil =>
      rw [List.mapM_nil, List.forall₂_nil_left_iff]
      exact ⟨fun same => (Except.ok.inj same).symm, fun same => same ▸ rfl⟩
  | cons item rest ih =>
      rw [List.mapM_cons, List.forall₂_cons_left_iff, bind_eq_ok_iff]
      constructor
      · rintro ⟨first, readFirst, others⟩
        obtain ⟨later, readLater, made⟩ := bind_eq_ok_iff.1 others
        cases made
        exact ⟨first, later, readFirst, ih.1 readLater, rfl⟩
      · rintro ⟨first, later, readFirst, readLater, rfl⟩
        exact ⟨first, readFirst, bind_eq_ok_iff.2 ⟨later, ih.2 readLater, rfl⟩⟩

/-- A reader of numbered items succeeds when it reads each of them. -/
theorem mapM_zipIdx_eq_ok_iff {read : α × Nat → Except ε β} {reads : α → β → Prop}
    (spec : ∀ item number result, read (item, number) = .ok result ↔ reads item result)
    (items : List α) (number : Nat) (results : List β) :
    (items.zipIdx number).mapM read = .ok results ↔ List.Forall₂ reads items results := by
  have same : (fun (item : α × Nat) result => read item = .ok result) =
      fun item result => reads item.1 result := by
    funext item result
    exact propext (spec item.1 item.2 result)
  rw [mapM_eq_ok_iff, same, ← List.forall₂_map_left_iff (f := Prod.fst), List.zipIdx_map_fst]

end

namespace Json

variable {fields : Fields} {name : String}

theorem requireString_eq_ok_iff {s : String} :
    requireString fields name = .ok s ↔ field? fields name = some (.string s) := by
  unfold requireString
  split <;> rename_i found <;> simp_all

theorem requireList_eq_ok_iff {items : List Json} :
    requireList fields name = .ok items ↔ field? fields name = some (.array items) := by
  unfold requireList
  split <;> rename_i found <;> simp_all

theorem optionalString_eq_ok_iff {value : Option String} :
    optionalString fields name = .ok value ↔
      (field? fields name).getD .null = ofString? value := by
  unfold optionalString
  cases value with
  | none => split <;> rename_i found <;> simp_all [ofString?]
  | some s => split <;> rename_i found <;> simp_all [ofString?]

theorem mapM_string?_eq_some_iff {items : List Json} {strings : List String} :
    items.mapM string? = some strings ↔ items = strings.map .string := by
  induction items generalizing strings with
  | nil => cases strings <;> simp
  | cons item rest ih =>
      cases strings with
      | nil => simp [Option.bind_eq_some_iff]
      | cons s others =>
          rw [List.mapM_cons, List.map_cons, List.cons.injEq, ← ih]
          cases item with
          | string first =>
              simp only [string?, Option.pure_def, Option.bind_eq_bind, Option.bind_some,
                Option.bind_eq_some_iff, Option.some.injEq, List.cons.injEq, Json.string.injEq]
              constructor
              · rintro ⟨_, rests, equal, rfl⟩
                exact ⟨equal, rests⟩
              · rintro ⟨equal, rests⟩
                exact ⟨others, rests, equal, rfl⟩
          | _ => simp [string?]

theorem strings?_eq_some_iff {value : Json} {strings : List String} :
    value.strings? = some strings ↔ value = ofStrings strings := by
  cases value <;> simp [strings?, array?, ofStrings, mapM_string?_eq_some_iff]

/-! ## Fields -/

theorem field?_append (front back : Fields) (name : String) :
    field? (front ++ back) name = (field? front name).or (field? back name) :=
  List.lookup_append

theorem field?_eq_none_of_not_mem (absent : name ∉ fields.map Prod.fst) :
    field? fields name = none := by
  rw [field?, List.lookup_eq_none_iff]
  intro pair member
  rw [bne_iff_ne]
  rintro rfl
  exact absent (List.mem_map_of_mem member)

theorem field?_fieldsExcept_of_not_mem {names : List String} (unknown : name ∉ names) :
    field? (fieldsExcept names fields) name = field? fields name := by
  induction fields with
  | nil => rfl
  | cons pair rest ih =>
      obtain ⟨key, value⟩ := pair
      by_cases same : name = key
      · subst same
        have kept : fieldsExcept names ((name, value) :: rest) =
            (name, value) :: fieldsExcept names rest := by simp [fieldsExcept, unknown]
        rw [kept, field?, field?, List.lookup_cons_self, List.lookup_cons_self]
      · have apart : (name == key) = false := beq_eq_false_iff_ne.2 same
        have skipped : field? ((key, value) :: rest) name = field? rest name := by
          simp [field?, List.lookup_cons, apart]
        rw [skipped, ← ih]
        by_cases known : key ∈ names
        · simp [fieldsExcept, known]
        · have kept : fieldsExcept names ((key, value) :: rest) =
              (key, value) :: fieldsExcept names rest := by simp [fieldsExcept, known]
          rw [kept]
          simp [field?, List.lookup_cons, apart]

/-- Known fields with their values, without those that have none. -/
def written (slots : List (String × Option Json)) : Fields :=
  slots.filterMap fun slot => slot.2.map (slot.1, ·)

theorem map_fst_written_sublist (slots : List (String × Option Json)) :
    ((written slots).map Prod.fst).Sublist (slots.map Prod.fst) := by
  induction slots with
  | nil => exact List.Sublist.refl _
  | cons slot rest ih =>
      obtain ⟨key, value⟩ := slot
      cases value with
      | none => exact ih.cons key
      | some value => exact ih.cons_cons key

theorem field?_written {slots : List (String × Option Json)} (distinct : (slots.map Prod.fst).Nodup)
    {slot : String × Option Json} (member : slot ∈ slots) :
    field? (written slots) slot.1 = slot.2 := by
  induction slots with
  | nil => cases member
  | cons first rest ih =>
      obtain ⟨key, value⟩ := first
      rw [List.map_cons, List.nodup_cons] at distinct
      have later : field? (written rest) key = none :=
        field?_eq_none_of_not_mem fun among =>
          distinct.1 ((map_fst_written_sublist rest).subset among)
      rcases List.mem_cons.1 member with rfl | among
      · cases value with
        | none => exact later
        | some value => exact List.lookup_cons_self
      · have apart : (slot.1 == key) = false := by
          rw [beq_eq_false_iff_ne]
          intro same
          have named : slot.1 ∈ rest.map Prod.fst := List.mem_map_of_mem among
          exact distinct.1 (same ▸ named)
        rw [← ih distinct.2 among]
        cases value with
        | none => rfl
        | some value =>
            show List.lookup slot.1 ((key, value) :: written rest) = _
            rw [List.lookup_cons, apart]
            rfl

theorem fieldsExcept_written_append {names : List String} {slots : List (String × Option Json)}
    (known : slots.map Prod.fst = names) {extras : Fields}
    (free : ∀ field ∈ extras, field.1 ∉ names) :
    fieldsExcept names (written slots ++ extras) = extras := by
  have front : fieldsExcept names (written slots) = [] := by
    rw [fieldsExcept, List.filter_eq_nil_iff]
    intro field member
    have among := (map_fst_written_sublist slots).subset (List.mem_map_of_mem (f := Prod.fst) member)
    rw [known] at among
    simp [among]
  have back : fieldsExcept names extras = extras := by
    rw [fieldsExcept, List.filter_eq_self]
    intro field member
    simp [free field member]
  rw [fieldsExcept, List.filter_append]
  rw [fieldsExcept] at front back
  rw [front, back, List.nil_append]

theorem not_mem_of_mem_fieldsExcept {names : List String} {field : String × Json}
    (member : field ∈ fieldsExcept names fields) : field.1 ∉ names := by
  simp only [fieldsExcept, List.mem_filter, Bool.not_eq_true', List.contains_eq_mem,
    decide_eq_false_iff_not] at member
  exact member.2

end Json

theorem exists_of_mem_right {α β : Type} {reads : α → β → Prop} {items : List α} {results : List β}
    (each : List.Forall₂ reads items results) {result : β} (member : result ∈ results) :
    ∃ item ∈ items, reads item result := by
  induction each with
  | nil => cases member
  | cons first _ ih =>
      rcases List.mem_cons.1 member with rfl | later
      · exact ⟨_, List.mem_cons_self, first⟩
      · obtain ⟨item, among, read⟩ := ih later
        exact ⟨item, List.mem_cons_of_mem _ among, read⟩

/-- Two arrays, item by item. -/
inductive Json.Itemwise (same : Json → Json → Prop) : Json → Json → Prop where
  | arrays {old new : List Json} (items : List.Forall₂ same old new) :
      Itemwise same (.array old) (.array new)

/-! ## Forms of records -/

/-- What fields a kind of record has. -/
structure RecordForm where
  /-- The known fields, in the order in which they are written. -/
  known : List String
  /-- Known fields that are left out instead of being written as null. -/
  optional : List String
  /-- Known fields that may be missing, with what they are then written as. -/
  defaults : Json.Fields
  distinct : known.Nodup
  optional_known : ∀ name ∈ optional, name ∈ known
  defaults_known : ∀ field ∈ defaults, field.1 ∈ known

namespace RecordForm

/-- What a field becomes when its record is read and written again.  `same` says of each field
which values count as the same. -/
inductive Becomes (form : RecordForm) (same : String → Json → Json → Prop) (name : String) :
    Option Json → Option Json → Prop where
  | kept {value again : Json} (needed : name ∈ form.optional → value ≠ .null)
      (equal : same name value again) : Becomes form same name (some value) (some again)
  | omitted (mayMiss : name ∈ form.optional) : Becomes form same name (some .null) none
  /-- A missing field that has no default stays away. -/
  | defaulted : Becomes form same name none (Json.field? form.defaults name)

/-- A record and what is written for it after it has been read. -/
structure Keeps (form : RecordForm) (same : String → Json → Json → Prop)
    (old new : Json.Fields) : Prop where
  fields : ∀ name, form.Becomes same name (Json.field? old name) (Json.field? new name)
  /-- The known fields come first, in the order of the form, and then the others as they were. -/
  order : ∃ front, new = front ++ Json.fieldsExcept form.known old ∧
    (front.map Prod.fst).Sublist form.known
  /-- No field is named twice, so none overrides another. -/
  unique : (old.map Prod.fst).Nodup → (new.map Prod.fst).Nodup

/-- The two values are records, the second written for the first. -/
def KeepsValue (form : RecordForm) (same : String → Json → Json → Prop) (old new : Json) : Prop :=
  ∃ before after, old = .object before ∧ new = .object after ∧ form.Keeps same before after

variable {form : RecordForm} {same : String → Json → Json → Prop} {old : Json.Fields}
  {slots : List (String × Option Json)}

/-- A field that has to be there. -/
theorem Becomes.required {name : String} {held : Option Json} {value again : Json}
    (given : held = some value) (needed : name ∉ form.optional)
    (equal : same name value again) : form.Becomes same name held (some again) := by
  rw [given]
  exact .kept (fun mayMiss => absurd mayMiss needed) equal

/-- A field that is read as a string or nothing, and written when there is a string. -/
theorem Becomes.ofOptional {name : String} {held : Option Json} {value : Option String}
    (mayMiss : name ∈ form.optional) (bare : Json.field? form.defaults name = none)
    (equal : ∀ value, same name value value) (read : held.getD .null = Json.ofString? value) :
    form.Becomes same name held (value.map .string) := by
  cases value with
  | some s =>
      cases held with
      | none => exact nomatch read
      | some found =>
          have found_eq : found = .string s := read
          rw [found_eq]
          exact .kept (fun _ => nofun) (equal _)
  | none =>
      cases held with
      | none =>
          have missing : form.Becomes same name none (Json.field? form.defaults name) := .defaulted
          rwa [bare] at missing
      | some found =>
          have found_eq : found = .null := read
          rw [found_eq]
          exact .omitted mayMiss

/-- A field that has a default, and is always written. -/
theorem Becomes.always {name : String} {held : Option Json} {value again : Json}
    (given : Json.field? form.defaults name = some value) (needed : name ∉ form.optional)
    (present : ∀ old, held = some old → same name old again)
    (missing : held = none → again = value) : form.Becomes same name held (some again) := by
  cases held with
  | none =>
      rw [missing rfl, ← given]
      exact .defaulted
  | some old => exact .required rfl needed (present old rfl)

theorem Becomes.ofDefault {name : String} {held : Option Json} {value again : Json}
    (given : Json.field? form.defaults name = some value) (needed : name ∉ form.optional)
    (equal : ∀ value, same name value value) (read : held.getD value = again) :
    form.Becomes same name held (some again) := by
  subst read
  refine .always given needed ?_ ?_
  · rintro old rfl
    exact equal old
  · rintro rfl
    rfl

theorem field?_defaults_of_unknown {name : String} (unknown : name ∉ form.known) :
    Json.field? form.defaults name = none := by
  refine Json.field?_eq_none_of_not_mem fun member => ?_
  obtain ⟨field, given, rfl⟩ := List.mem_map.1 member
  exact unknown (form.defaults_known field given)

/-- A field that the form does not know becomes what it was. -/
theorem becomes_self {name : String} (unknown : name ∉ form.known)
    (equal : ∀ value, same name value value) (held : Option Json) :
    form.Becomes same name held held := by
  cases held with
  | none =>
      have missing : form.Becomes same name none (Json.field? form.defaults name) := .defaulted
      rwa [field?_defaults_of_unknown unknown] at missing
  | some value =>
      exact .kept (fun mayMiss => absurd (form.optional_known name mayMiss) unknown) (equal value)

section

variable (known : slots.map Prod.fst = form.known) {extras : Json.Fields}
  (free : ∀ field ∈ extras, field.1 ∉ form.known)

include known

theorem map_fst_written_sublist : ((Json.written slots).map Prod.fst).Sublist form.known :=
  known ▸ Json.map_fst_written_sublist slots

include free

theorem field?_of_slot {name : String} {value : Option Json} (member : (name, value) ∈ slots) :
    Json.field? (Json.written slots ++ extras) name = value := by
  have distinct : (slots.map Prod.fst).Nodup := known ▸ form.distinct
  have among : name ∈ form.known := known ▸ List.mem_map_of_mem (f := Prod.fst) member
  have absent : Json.field? extras name = none :=
    Json.field?_eq_none_of_not_mem fun member => by
      obtain ⟨field, inExtras, equal⟩ := List.mem_map.1 member
      exact free field inExtras (equal ▸ among)
  have held : Json.field? (Json.written slots) name = value := Json.field?_written distinct member
  rw [Json.field?_append, held, absent, Option.or_none]

theorem fieldsExcept_written_append :
    Json.fieldsExcept form.known (Json.written slots ++ extras) = extras :=
  Json.fieldsExcept_written_append known free

end

/-- **A record is kept when each of its known fields is.** -/
theorem keeps_written (known : slots.map Prod.fst = form.known)
    (others : ∀ name, name ∉ form.known → ∀ value, same name value value)
    (becomes : ∀ slot ∈ slots, form.Becomes same slot.1 (Json.field? old slot.1) slot.2) :
    form.Keeps same old (Json.written slots ++ Json.fieldsExcept form.known old) := by
  have free : ∀ field ∈ Json.fieldsExcept form.known old, field.1 ∉ form.known :=
    fun field member => Json.not_mem_of_mem_fieldsExcept member
  have front := map_fst_written_sublist known
  refine ⟨fun name => ?_, ⟨_, rfl, front⟩, fun distinct => ?_⟩
  · by_cases among : name ∈ form.known
    · rw [← known] at among
      obtain ⟨⟨name, value⟩, member, rfl⟩ := List.mem_map.1 among
      rw [field?_of_slot known free member]
      exact becomes (name, value) member
    · have asBefore : Json.field? (Json.written slots ++ Json.fieldsExcept form.known old) name =
          Json.field? old name := by
        rw [Json.field?_append, Json.field?_fieldsExcept_of_not_mem among,
          Json.field?_eq_none_of_not_mem fun member => among (front.subset member), Option.none_or]
      rw [asBefore]
      exact becomes_self among (others name among) _
  · have later : (Json.fieldsExcept form.known old).map Prod.fst |>.Nodup :=
      distinct.sublist (List.filter_sublist.map Prod.fst)
    rw [List.map_append, List.nodup_append]
    refine ⟨form.distinct.sublist front, later, ?_⟩
    rintro name inFront _ inBack rfl
    obtain ⟨field, member, rfl⟩ := List.mem_map.1 inBack
    exact free field member (front.subset inFront)

end RecordForm

end Traceability
