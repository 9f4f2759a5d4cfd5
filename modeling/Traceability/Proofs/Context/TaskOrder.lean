/-
# Traceability.Proofs.Context.TaskOrder -- a task is found where it first stands in the tree

The objects of a task tree have addresses: the position of an item, then the
position of one of its children, and so on down (`objectAt?`).  An address leads
through objects only, so an item that is no object has none, nor has anything in
it.  Addresses compare like words in a dictionary.  That is the order of reading:
an object before what is below it, and all that is below it before its next
sibling.

`IsFirstTask` is the task that a reader in that order meets first.  The search
answers with it, and with nothing only if no object has the identifier
(`findTask?_first`).  It has an answer whenever children that are given are lists.

The answer for a list is put together from the answers for the children of its
first item and for the other items.  What the second one needs from the first is
that everything at a smaller address has been passed (`Answers.later`).
-/
import Traceability.Proofs.Json.KeyPath
import Traceability.Context

namespace Traceability

set_option autoImplicit false

/-! ## Addresses -/

/-- The items that the children of an object hold: none if the children are no list. -/
def childItems (fields : Json.Fields) : List Json :=
  ((Json.field? fields "children").bind Json.array?).getD []

/-- The object at an address: at a position among items or, along the rest of the address, among the
children of the object at that position. -/
def objectAt? : List Json → List Nat → Option Json.Fields
  | _, [] => none
  | items, [position] => items[position]?.bind Json.object?
  | items, position :: next :: address =>
      (items[position]?.bind Json.object?).bind fun fields =>
        objectAt? (childItems fields) (next :: address)

/-- All the objects that have addresses among items are like this. -/
def EveryObject (holds : Json.Fields → Prop) (items : List Json) : Prop :=
  ∀ address task, objectAt? items address = some task → holds task

section

variable {holds : Json.Fields → Prop} {item : Json} {rest : List Json} {fields : Json.Fields}

theorem objectAt?_nil (address : List Nat) : objectAt? [] address = none := by
  rcases address with _ | ⟨position, _ | ⟨next, address⟩⟩ <;> rfl

theorem objectAt?_zero (address : List Nat) :
    objectAt? (item :: rest) (0 :: address) = objectAt? [item] (0 :: address) := by
  cases address <;> rfl

theorem objectAt?_succ (position : Nat) (address : List Nat) :
    objectAt? (item :: rest) ((position + 1) :: address) =
      objectAt? rest (position :: address) := by
  cases address with
  | nil => simp only [objectAt?, List.getElem?_cons_succ]
  | cons next address => simp only [objectAt?, List.getElem?_cons_succ]

/-- Nothing stands at or in an item that is no object. -/
theorem objectAt?_of_plain (plain : item.object? = none) (address : List Nat) :
    objectAt? [item] (0 :: address) = none := by
  cases address with
  | nil => simp only [objectAt?, List.getElem?_cons_zero, Option.bind_some, plain]
  | cons next address =>
      simp only [objectAt?, List.getElem?_cons_zero, Option.bind_some, plain, Option.bind_none]

theorem exists_address_of_singleton {address : List Nat} {task : Json.Fields}
    (stands : objectAt? [item] address = some task) : ∃ inner, address = 0 :: inner := by
  match address with
  | [] => cases stands
  | 0 :: inner => exact ⟨inner, rfl⟩
  | (position + 1) :: inner =>
      rw [objectAt?_succ, objectAt?_nil] at stands
      cases stands

theorem everyObject_nil : EveryObject holds [] := by
  intro address task stands
  rw [objectAt?_nil] at stands
  cases stands

theorem everyObject_cons_iff :
    EveryObject holds (item :: rest) ↔ EveryObject holds [item] ∧ EveryObject holds rest := by
  constructor
  · intro every
    refine ⟨fun address task stands => ?_, fun address task stands => ?_⟩
    · obtain ⟨inner, rfl⟩ := exists_address_of_singleton stands
      exact every (0 :: inner) task (by rwa [objectAt?_zero])
    · cases address with
      | nil => cases stands
      | cons position inner =>
          exact every ((position + 1) :: inner) task (by rwa [objectAt?_succ])
  · rintro ⟨first, later⟩ address task stands
    match address with
    | [] => cases stands
    | 0 :: inner => exact first (0 :: inner) task (by rwa [objectAt?_zero] at stands)
    | (position + 1) :: inner =>
        exact later (position :: inner) task (by rwa [objectAt?_succ] at stands)

theorem everyObject_object_iff :
    EveryObject holds [.object fields] ↔ holds fields ∧ EveryObject holds (childItems fields) := by
  constructor
  · intro every
    refine ⟨every [0] fields rfl, fun address task stands => ?_⟩
    cases address with
    | nil => cases stands
    | cons next inner => exact every (0 :: next :: inner) task stands
  · rintro ⟨here, below⟩ address task stands
    obtain ⟨inner, rfl⟩ := exists_address_of_singleton stands
    cases inner with
    | nil =>
        cases stands
        exact here
    | cons next inner => exact below (next :: inner) task stands

theorem everyObject_of_plain (plain : item.object? = none) : EveryObject holds [item] := by
  intro address task stands
  obtain ⟨inner, rfl⟩ := exists_address_of_singleton stands
  rw [objectAt?_of_plain plain] at stands
  cases stands

end

/-! ## The first task -/

/-- Children that are given to an object are a list. -/
def ListsChildren (fields : Json.Fields) : Prop :=
  ∀ value, Json.field? fields "children" = some value → value.isGiven = true →
    ∃ items, value = .array items

/-- The object has another identifier, or none. -/
def LacksId (nodeId : String) (fields : Json.Fields) : Prop := fieldIs fields "id" nodeId = false

instance (nodeId : String) (fields : Json.Fields) : Decidable (LacksId nodeId fields) :=
  inferInstanceAs (Decidable (_ = false))

/-- The object at an address has the identifier, and none at a smaller address has it. -/
structure IsFirstTask (nodeId : String) (items : List Json) (address : List Nat)
    (task : Json.Fields) : Prop where
  stands : objectAt? items address = some task
  named : fieldIs task "id" nodeId = true
  first : ∀ earlier other, earlier < address → objectAt? items earlier = some other →
    LacksId nodeId other

/-- What a search of items has to answer: the first task, or nothing if no object has the
identifier. -/
def Answers (nodeId : String) (items : List Json) : Option Json → Prop
  | none => EveryObject (LacksId nodeId) items
  | some found => ∃ address task, found = .object task ∧ IsFirstTask nodeId items address task

section

variable {nodeId : String} {items rest : List Json} {item : Json} {fields task : Json.Fields}
variable {address : List Nat} {answer : Option Json}

theorem IsFirstTask.not_everyObject (isFirst : IsFirstTask nodeId items address task) :
    ¬EveryObject (LacksId nodeId) items := by
  intro absent
  have unnamed : fieldIs task "id" nodeId = false := absent address task isFirst.stands
  rw [isFirst.named] at unnamed
  cases unnamed

theorem IsFirstTask.unique {other : List Nat} {found : Json.Fields}
    (here : IsFirstTask nodeId items address task)
    (there : IsFirstTask nodeId items other found) : task = found := by
  have not_after : ¬other < address := fun before =>
    Bool.eq_false_iff.1 (here.first other found before there.stands) there.named
  have not_before : ¬address < other := fun before =>
    Bool.eq_false_iff.1 (there.first address task before here.stands) here.named
  obtain rfl : address = other := List.le_antisymm not_after not_before
  exact Option.some.inj (here.stands.symm.trans there.stands)

theorem IsFirstTask.here (named : fieldIs fields "id" nodeId = true) :
    IsFirstTask nodeId (.object fields :: rest) [0] fields := by
  refine ⟨rfl, named, ?_⟩
  intro earlier other before stands
  cases earlier with
  | nil => cases stands
  | cons position inner =>
      rcases List.cons_lt_cons_iff.1 before with impossible | ⟨-, impossible⟩
      · exact absurd impossible (Nat.not_lt_zero position)
      · exact absurd impossible (List.not_lt_nil inner)

theorem IsFirstTask.below (lacks : LacksId nodeId fields)
    (isFirst : IsFirstTask nodeId (childItems fields) address task) :
    IsFirstTask nodeId (.object fields :: rest) (0 :: address) task := by
  obtain ⟨stands, named, first⟩ := isFirst
  cases address with
  | nil => cases stands
  | cons next inner =>
      refine ⟨stands, named, ?_⟩
      intro earlier other before standsEarlier
      match earlier with
      | [] => cases standsEarlier
      | [0] =>
          -- Above the first task stands the object itself.
          cases standsEarlier
          exact lacks
      | 0 :: next :: inner =>
          have beforeBelow := List.cons_lt_cons_self.1 before
          exact first (next :: inner) other beforeBelow standsEarlier
      | (position + 1) :: inner => nomatch before

theorem IsFirstTask.later {position : Nat} (passed : EveryObject (LacksId nodeId) [item])
    (isFirst : IsFirstTask nodeId rest (position :: address) task) :
    IsFirstTask nodeId (item :: rest) ((position + 1) :: address) task := by
  refine ⟨by rw [objectAt?_succ]; exact isFirst.stands, isFirst.named, ?_⟩
  intro earlier other before stands
  match earlier with
  | [] => cases stands
  | 0 :: inner => exact passed (0 :: inner) other (by rwa [objectAt?_zero] at stands)
  | (smaller + 1) :: inner =>
      rw [objectAt?_succ] at stands
      refine isFirst.first (smaller :: inner) other ?_ stands
      rw [List.cons_lt_cons_iff] at before ⊢
      rcases before with above | ⟨same, before⟩
      · exact .inl (Nat.lt_of_succ_lt_succ above)
      · exact .inr ⟨Nat.succ.inj same, before⟩

theorem Answers.below {found : Json} (lacks : LacksId nodeId fields)
    (answers : Answers nodeId (childItems fields) (some found)) :
    Answers nodeId (.object fields :: rest) (some found) := by
  obtain ⟨address, task, same, isFirst⟩ := answers
  exact ⟨0 :: address, task, same, isFirst.below lacks⟩

theorem Answers.later (passed : EveryObject (LacksId nodeId) [item])
    (answers : Answers nodeId rest answer) : Answers nodeId (item :: rest) answer := by
  cases answer with
  | none => exact everyObject_cons_iff.2 ⟨passed, answers⟩
  | some found =>
      obtain ⟨address, task, same, isFirst⟩ := answers
      cases address with
      | nil => cases isFirst.stands
      | cons position inner => exact ⟨(position + 1) :: inner, task, same, isFirst.later passed⟩

theorem Answers.eq_none_iff (answers : Answers nodeId items answer) :
    answer = none ↔ EveryObject (LacksId nodeId) items := by
  cases answer with
  | none => exact ⟨fun _ => answers, fun _ => rfl⟩
  | some found =>
      obtain ⟨address, task, -, isFirst⟩ := answers
      exact ⟨nofun, fun absent => absurd absent isFirst.not_everyObject⟩

theorem Answers.eq_some_iff {found : Json} (answers : Answers nodeId items answer) :
    answer = some found ↔
      ∃ address task, found = .object task ∧ IsFirstTask nodeId items address task := by
  constructor
  · rintro rfl
    exact answers
  · rintro ⟨address, task, rfl, isFirst⟩
    cases answer with
    | none => exact absurd answers isFirst.not_everyObject
    | some held =>
        obtain ⟨other, same, rfl, isFirstToo⟩ := answers
        rw [isFirst.unique isFirstToo]

end

/-! ## The search -/

section

variable {nodeId : String} {item : Json} {rest : List Json} {fields : Json.Fields}

theorem findTask?_of_plain (plain : item.object? = none) :
    findTask? nodeId (item :: rest) = findTask? nodeId rest := by
  cases item with
  | object fields => cases plain
  | _ => rw [findTask?.eq_def]

theorem childItems_cons_self {value : Json} {others : Json.Fields} :
    childItems (("children", value) :: others) = value.array?.getD [] := by
  rw [childItems, Json.field?_cons_self, Option.bind_some]

theorem childItems_cons_of_ne {name : String} {value : Json} {others : Json.Fields}
    (apart : "children" ≠ name) : childItems ((name, value) :: others) = childItems others := by
  rw [childItems, Json.field?_cons_of_ne apart, childItems]

/-- Children that are not given are searched like a list without items. -/
theorem findInChildren?_cons_self {value : Json} {others : Json.Fields}
    (lists : value.isGiven = true → ∃ items, value = .array items) :
    findInChildren? nodeId (("children", value) :: others) =
      findTask? nodeId (value.array?.getD []) := by
  by_cases given : value.isGiven = true
  · obtain ⟨items, rfl⟩ := lists given
    simp only [findInChildren?, beq_self_eq_true, if_true, Json.array?, Option.getD_some]
  · -- Of every kind of value, what is not given holds no items.
    cases value <;> simp_all [findInChildren?, findTask?, Json.array?, Json.isGiven]

theorem findInChildren?_cons_of_ne {name : String} {value : Json} {others : Json.Fields}
    (apart : "children" ≠ name) :
    findInChildren? nodeId ((name, value) :: others) = findInChildren? nodeId others := by
  have differ : (name == "children") = false := beq_eq_false_iff_ne.2 (Ne.symm apart)
  rw [findInChildren?.eq_def]
  simp only [differ, Bool.false_eq_true, if_false]

theorem findInChildren?_eq_findTask? (lists : ListsChildren fields) :
    findInChildren? nodeId fields = findTask? nodeId (childItems fields) := by
  induction fields with
  | nil =>
      have noItems : childItems [] = [] := rfl
      rw [findInChildren?, noItems, findTask?]
  | cons field others ih =>
      obtain ⟨name, value⟩ := field
      by_cases same : "children" = name
      · subst same
        rw [findInChildren?_cons_self (lists value Json.field?_cons_self), childItems_cons_self]
      · have listsOthers : ListsChildren others := by
          intro held holds
          exact lists held (by rwa [Json.field?_cons_of_ne same])
        rw [findInChildren?_cons_of_ne same, childItems_cons_of_ne same, ih listsOthers]

/-- The children of an object are smaller than the object. -/
theorem sizeOf_childItems_lt (fields : Json.Fields) :
    sizeOf (childItems fields) < sizeOf (Json.object fields) := by
  induction fields with
  | nil => decide
  | cons field others ih =>
      obtain ⟨name, value⟩ := field
      by_cases same : "children" = name
      · subst same
        have within : sizeOf (value.array?.getD []) ≤ sizeOf value := by
          cases value <;> simp [Json.array?]
        rw [childItems_cons_self, Json.object.sizeOf_spec, List.cons.sizeOf_spec,
          Prod.mk.sizeOf_spec]
        omega
      · rw [childItems_cons_of_ne same]
        rw [Json.object.sizeOf_spec] at ih ⊢
        rw [List.cons.sizeOf_spec]
        omega

end

/-- Where children that are given are lists, a search of items has an answer, and the right one.  The
recursion is the search's own: on the children of the first item, and on the other items. -/
theorem exists_answer (nodeId : String) : ∀ items : List Json, EveryObject ListsChildren items →
    ∃ answer, findTask? nodeId items = .ok answer ∧ Answers nodeId items answer
  | [], _ => ⟨none, by rw [findTask?], everyObject_nil⟩
  | .object fields :: rest, listed => by
      obtain ⟨listedFirst, listedRest⟩ := everyObject_cons_iff.1 listed
      obtain ⟨lists, listedBelow⟩ := everyObject_object_iff.1 listedFirst
      rw [findTask?]
      by_cases named : fieldIs fields "id" nodeId = true
      · rw [if_pos named]
        exact ⟨_, rfl, [0], fields, rfl, .here named⟩
      · have lacks : LacksId nodeId fields := Bool.eq_false_iff.2 named
        obtain ⟨below, searched, answersBelow⟩ :=
          exists_answer nodeId (childItems fields) listedBelow
        rw [if_neg named, findInChildren?_eq_findTask? lists, searched]
        cases below with
        | some found => exact ⟨some found, rfl, answersBelow.below lacks⟩
        | none =>
            obtain ⟨later, searchedRest, answersRest⟩ := exists_answer nodeId rest listedRest
            have passed := everyObject_object_iff.2 ⟨lacks, answersBelow⟩
            exact ⟨later, searchedRest, answersRest.later passed⟩
  | .null :: rest, listed | .bool _ :: rest, listed | .int _ :: rest, listed
  | .real _ :: rest, listed | .string _ :: rest, listed | .array _ :: rest, listed => by
      obtain ⟨later, searchedRest, answersRest⟩ :=
        exists_answer nodeId rest (everyObject_cons_iff.1 listed).2
      rw [findTask?_of_plain rfl]
      exact ⟨later, searchedRest, answersRest.later (everyObject_of_plain rfl)⟩
termination_by items => sizeOf items
decreasing_by
  · have smaller := sizeOf_childItems_lt fields
    rw [List.cons.sizeOf_spec]
    omega
  all_goals
    rw [List.cons.sizeOf_spec]
    omega

/-- **Where children that are given are lists, a search has an answer: nothing only if no object has
the identifier, and otherwise the first object that has it.** -/
theorem findTask?_first (nodeId : String) {items : List Json}
    (listed : EveryObject ListsChildren items) :
    ∃ answer, findTask? nodeId items = .ok answer ∧
      (answer = none ↔
        ∀ address task, objectAt? items address = some task → fieldIs task "id" nodeId = false) ∧
      ∀ found, answer = some found ↔
        ∃ address task, found = .object task ∧ IsFirstTask nodeId items address task := by
  obtain ⟨answer, searched, answers⟩ := exists_answer nodeId items listed
  exact ⟨answer, searched, answers.eq_none_iff, fun found => answers.eq_some_iff⟩

/-- Three objects have one identifier.  The first is inside an item that is no object, the second is
below another object, and the third follows that one. -/
def scatteredTasks : List Json :=
  [.array [.object [("id", .string "T")]],
    .object [("id", .string "A"), ("children", .array
      [.string "T", .object [("id", .string "B"), ("children", .null)],
        .object [("id", .string "T"), ("label", .string "below")]])],
    .object [("id", .string "T"), ("children", .bool false)]]

/-- The second one is found: the first has no address, and the third has a greater one. -/
theorem findTask?_first_scattered :
    EveryObject ListsChildren scatteredTasks ∧
      IsFirstTask "T" scatteredTasks [1, 2] [("id", .string "T"), ("label", .string "below")] ∧
      findTask? "T" scatteredTasks =
        .ok (some (.object [("id", .string "T"), ("label", .string "below")])) := by
  have listed : EveryObject ListsChildren scatteredTasks := by
    refine everyObject_cons_iff.2 ⟨everyObject_of_plain rfl, everyObject_cons_iff.2 ⟨?_, ?_⟩⟩
    · refine everyObject_object_iff.2 ⟨?_, everyObject_cons_iff.2 ⟨everyObject_of_plain rfl, ?_⟩⟩
      · rintro _ ⟨rfl⟩ -
        exact ⟨_, rfl⟩
      · refine everyObject_cons_iff.2 ⟨?_, ?_⟩ <;>
          exact everyObject_object_iff.2 ⟨by rintro _ ⟨rfl⟩ ⟨⟩, everyObject_nil⟩
    · exact everyObject_object_iff.2 ⟨by rintro _ ⟨rfl⟩ ⟨⟩, everyObject_nil⟩
  have isFirst : IsFirstTask "T" scatteredTasks [1, 2]
      [("id", .string "T"), ("label", .string "below")] := by
    apply IsFirstTask.later (everyObject_of_plain rfl)
    apply IsFirstTask.below (by decide)
    apply IsFirstTask.later (everyObject_of_plain rfl)
    apply IsFirstTask.later (everyObject_object_iff.2 ⟨by decide, everyObject_nil⟩)
    exact IsFirstTask.here (by decide)
  obtain ⟨answer, searched, -, found_iff⟩ := findTask?_first "T" listed
  obtain rfl := (found_iff _).2 ⟨[1, 2], _, rfl, isFirst⟩
  exact ⟨listed, isFirst, searched⟩

end Traceability
