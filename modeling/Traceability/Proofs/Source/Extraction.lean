/-
# Traceability.Proofs.Source.Extraction -- the source of a construct is that of its declaration

Two paths lead from a text to a construct of a name.  `parse` collects every
declaration, tells callables from types and lists each with its fingerprint;
`extract?` stops at the first line that declares the name and gives its source.

Every declaration is listed once, under its kind (`parse_perm`).  In one family the
search along the lines stops at the first declaration of the name
(`extractFrom_singleton`), which is also the first of its name among those of its
kind (`named?_listed`).  So the two paths meet (`extract?_agrees`), unless the name
is declared in both kinds and a search of the node prefers the other one.
-/
import Traceability.Proofs.Snapshot.Search
import Traceability.Proofs.Source.Structure

namespace Traceability

set_option autoImplicit false

/-- The constructs of a kind that a node lists. -/
def Node.listed (node : Node) : ConstructKind → List Construct
  | .callable => node.outputs
  | .data => node.data

/-- What is found first is found first among those that have a property, if it has the property. -/
theorem find?_filter_of_find? {α : Type} {wanted kept : α → Bool} {values : List α} {first : α}
    (found : values.find? wanted = some first) (property : kept first = true) :
    (values.filter kept).find? wanted = some first := by
  obtain ⟨matched, before, after, rfl, earlier⟩ := List.find?_eq_some_iff_append.1 found
  rw [List.filter_append, List.filter_cons_of_pos property, List.find?_eq_some_iff_append]
  refine ⟨matched, before.filter kept, after.filter kept, rfl, fun value member => ?_⟩
  exact earlier value (List.mem_filter.1 member).1

namespace SourceParser

variable {parser : SourceParser} {family : Family} {content : Text} {path name : String}

/-! ## What is listed -/

/-- The constructs of a text, in the order of their declarations. -/
def constructs (parser : SourceParser) (content : Text) (path : String) : List Construct :=
  let family := parser.familyOf path content.lines
  (declarations family content.lines).map (parser.construct family content.lines)

/-- Every declaration is listed once, under its kind. -/
theorem parse_perm (parser : SourceParser) (content : Text) (path : String) :
    ((parser.parse content path).data ++ (parser.parse content path).outputs).Perm
      (parser.constructs content path) := by
  have others : ∀ construct : Construct,
      decide (construct.kind = .callable) = !decide (construct.kind = .data) := by
    intro construct
    cases construct.kind <;> rfl
  simp only [parse, others]
  exact List.filter_append_perm _ _

theorem listed_parse (parser : SourceParser) (content : Text) (path : String)
    (kind : ConstructKind) :
    (parser.parse content path).listed kind =
      (parser.constructs content path).filter (·.kind = kind) := by
  cases kind <;> rfl

/-- A node lists a name exactly if some line of the text declares it. -/
theorem lists_parse_iff :
    (parser.parse content path).Lists name ↔
      ∃ declaration ∈ declarations (parser.familyOf path content.lines) content.lines,
        declaration.name = name := by
  rw [Node.Lists]
  simp only [(parse_perm parser content path).mem_iff, constructs, List.mem_map]
  constructor
  · rintro ⟨_, ⟨declaration, member, rfl⟩, named⟩
    exact ⟨declaration, member, named⟩
  · rintro ⟨declaration, member, named⟩
    exact ⟨_, ⟨declaration, member, rfl⟩, named⟩

/-- The first declaration of a name is the first of that name that is listed under its kind. -/
theorem named?_listed {declaration : Declaration}
    (first : (declarations (parser.familyOf path content.lines) content.lines).find?
      (·.name == name) = some declaration) :
    Construct.named? ((parser.parse content path).listed declaration.kind) name =
      some (parser.construct (parser.familyOf path content.lines) content.lines declaration) := by
  rw [listed_parse, Construct.named?]
  refine find?_filter_of_find? ?_ (decide_eq_true rfl)
  rw [constructs, List.find?_map]
  exact congrArg _ first

/-- A search of the node finds the first declaration of a name, if all have its kind. -/
theorem findConstruct?_parse {declaration : Declaration}
    (first : (declarations (parser.familyOf path content.lines) content.lines).find?
      (·.name == name) = some declaration)
    (alike : ∀ other ∈ declarations (parser.familyOf path content.lines) content.lines,
      other.name = name → other.kind = declaration.kind) :
    (parser.parse content path).findConstruct? name =
      some (parser.construct (parser.familyOf path content.lines) content.lines declaration) := by
  have found := named?_listed first
  -- No construct of the name is listed under the other kind.
  have absent : ∀ kind, kind ≠ declaration.kind →
      Construct.named? ((parser.parse content path).listed kind) name = none := by
    intro kind other
    rw [Construct.named?_eq_none_iff, listed_parse, constructs]
    rintro ⟨construct, member, named⟩
    obtain ⟨among, ofKind⟩ := List.mem_filter.1 member
    obtain ⟨second, listed, rfl⟩ := List.mem_map.1 among
    exact other ((of_decide_eq_true ofKind).symm.trans (alike second listed named))
  rw [Node.findConstruct?_of_leaf rfl]
  cases kind : declaration.kind with
  | callable =>
      have noData := absent .data (by rw [kind]; exact nofun)
      rw [kind] at found
      exact (congrArg (Option.or · _) noData).trans found
  | data =>
      rw [kind] at found
      exact congrArg (Option.or · _) found

/-! ## What is extracted -/

/-- **In one family, the source of a construct is that of the first declaration of its name.** -/
theorem extractFrom_singleton (family : Family) (name : String) (lines : List Text) :
    extractFrom [family] name lines =
      ((declarations family lines).find? (·.name == name)).map (·.text lines) := by
  induction lines with
  | nil => rfl
  | cons line rest ih =>
      have below : (·.text (line :: rest)) ∘ Declaration.below = (·.text rest) :=
        funext fun declaration => declaration.text_below line rest
      have named : (fun declaration : Declaration => declaration.name == name) ∘ Declaration.below =
          (·.name == name) := rfl
      rw [extractFrom, declarations_cons, declaredFirst, List.find?_append, List.find?_map, named,
        ih, List.find?_singleton]
      cases declared? family line with
      | none => simp [below]
      | some declared =>
          by_cases same : (declared.1 == name) = true
          · simp [same, Declaration.text]
          · simp [same, below]

/-! ## The two paths -/

/-- **In a family that is fixed, the two paths to a construct agree.**  A name has a source exactly
if it is listed.  Its source is that of the first line that declares it, whose fingerprint is listed
first for the name under the kind of that declaration; a search of the node finds that fingerprint
too, if all declarations of the name are of one kind. -/
theorem extract?_agrees (fixed : parser.family? = some family) (content : Text)
    (path name : String) :
    (parser.extract? content name = none ↔ ¬(parser.parse content path).Lists name) ∧
      ∀ text, parser.extract? content name = some text →
        ∃ declaration,
          (declarations family content.lines).find? (·.name == name) = some declaration ∧
          text = declaration.text content.lines ∧
          Construct.named? ((parser.parse content path).listed declaration.kind) name =
            some ⟨name, declaration.kind,
              some (fingerprint parser.settings family.commentStyle text)⟩ ∧
          ((∀ other ∈ declarations family content.lines, other.name = name →
              other.kind = declaration.kind) →
            (parser.parse content path).findConstruct? name =
              some ⟨name, declaration.kind,
                some (fingerprint parser.settings family.commentStyle text)⟩) := by
  have read : parser.familyOf path content.lines = family := by
    rw [familyOf, fixed]
    rfl
  have extracted : parser.extract? content name =
      ((declarations family content.lines).find? (·.name == name)).map (·.text content.lines) := by
    rw [extract?, fixed]
    exact extractFrom_singleton family name content.lines
  rw [extracted]
  constructor
  · rw [Option.map_eq_none_iff, List.find?_eq_none, lists_parse_iff, read]
    simp only [beq_iff_eq, not_exists, not_and]
  · intro text found
    obtain ⟨declaration, first, rfl⟩ := Option.map_eq_some_iff.1 found
    have matched := List.find?_some first
    have named : declaration.name = name := beq_iff_eq.1 matched
    have construct : parser.construct family content.lines declaration =
        ⟨name, declaration.kind, some (fingerprint parser.settings family.commentStyle
          (declaration.text content.lines))⟩ := by
      rw [SourceParser.construct, named]
    refine ⟨declaration, first, rfl, ?_⟩
    rw [← construct]
    subst read
    exact ⟨named?_listed first, findConstruct?_parse first⟩

/-- A method and, below it, a function of the same name. -/
def repeatedName : Text :=
  "class A:\n    def run(self):\n        return 1\n\n\ndef run():\n    return 2\n".toList

/-- The first of the two is extracted and found, in the family that is fixed and not in that of the
file's name. -/
theorem extract?_agrees_repeated_name :
    extract? ⟨some .python, {}⟩ repeatedName "run" =
        some "    def run(self):\n        return 1".toList ∧
      (parse ⟨some .python, {}⟩ repeatedName "a.rs").findConstruct? "run" =
        some ⟨"run", .callable,
          some (fingerprint {} .hash "    def run(self):\n        return 1".toList)⟩ ∧
      extract? ⟨some .python, {}⟩ repeatedName "walk" = none := by
  have extracted : extract? ⟨some .python, {}⟩ repeatedName "run" =
      some "    def run(self):\n        return 1".toList := by decide +kernel
  have unlisted : ¬(parse ⟨some .python, {}⟩ repeatedName "a.rs").Lists "walk" := by
    rw [lists_parse_iff]
    decide +kernel
  obtain ⟨declaration, first, -, -, found⟩ :=
    (extract?_agrees rfl repeatedName "a.rs" "run").2 _ extracted
  have callable : (declarations .python repeatedName.lines).find? (·.name == "run") =
      some ⟨"run", .callable, 1, 3⟩ := by decide +kernel
  cases callable.symm.trans first
  refine ⟨extracted, found ?_, (extract?_agrees rfl repeatedName "a.rs" "walk").1.2 unlisted⟩
  decide +kernel

end SourceParser

end Traceability
