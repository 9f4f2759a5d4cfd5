/-
# Traceability.Proofs.Source.Snippet -- the source shown for a construct of a file

Without a fixed family `parse` reads a file in the family of its name, while
`extract?` is not told the name: it tries all families on every line in turn.  So
a line above a declaration may be taken for one in a family of another language,
as a returned call is in the C family (`snippet_is_a_call`), and a declaration
may be measured in another family than its own.

`Declaration.Unmistaken` says that neither happens.  For a name that a file
declares once it is exactly what it takes for the source of the construct to be
shown (`extract?_of_known`).
-/
import Traceability.Proofs.Source.Extent
import Traceability.Proofs.Source.Extraction
import Traceability.Proofs.Text.Lines

namespace Traceability

set_option autoImplicit false

/-- Does the line declare the name in the family? -/
def Family.declares (family : Family) (name : String) (line : Text) : Bool :=
  (declared? family line).any (·.1 == name)

theorem Family.mem_all (family : Family) : family ∈ all := by
  cases family <;> decide

/-! ## Declarations that are found by all families -/

/-- The family in which the line of a declaration is read, when all are tried. -/
def Declaration.triedFirst (declaration : Declaration) (lines : List Text) : Option Family :=
  Family.all.find? fun other => lines[declaration.start]?.any (other.declares declaration.name)

/-- **Nothing is mistaken for the declaration**, and it is not measured in another way. -/
structure Declaration.Unmistaken (declaration : Declaration) (family : Family)
    (lines : List Text) : Prop where
  /-- No line above it declares its name in any family. -/
  above : ∀ line ∈ lines.take declaration.start, ∀ other ∈ Family.all,
    other.declares declaration.name line = false
  /-- The first family in which its own line declares its name gives it the same extent. -/
  extent : ∀ other ∈ declaration.triedFirst lines,
    extentLength other (lines.drop declaration.start) =
      extentLength family (lines.drop declaration.start)

instance (declaration : Declaration) (family : Family) (lines : List Text) :
    Decidable (declaration.Unmistaken family lines) :=
  decidable_of_iff
    ((∀ line ∈ lines.take declaration.start, ∀ other ∈ Family.all,
        other.declares declaration.name line = false) ∧
      ∀ other ∈ declaration.triedFirst lines,
        extentLength other (lines.drop declaration.start) =
          extentLength family (lines.drop declaration.start))
    ⟨fun both => ⟨both.1, both.2⟩, fun unmistaken => ⟨unmistaken.above, unmistaken.extent⟩⟩

/-! ## Where the search stops -/

namespace SourceParser

variable {parser : SourceParser} {families : List Family} {name : String} {lines : List Text}

theorem extractFrom_cons_of_some {line : Text} {rest : List Text} {family : Family}
    (tried : families.find? (·.declares name line) = some family) :
    extractFrom families name (line :: rest) =
      some (Text.unlines ((line :: rest).take (extentLength family (line :: rest)))) := by
  unfold Family.declares at tried
  rw [extractFrom, tried]

theorem extractFrom_cons_of_none {line : Text} {rest : List Text}
    (nowhere : families.find? (·.declares name line) = none) :
    extractFrom families name (line :: rest) = extractFrom families name rest := by
  unfold Family.declares at nowhere
  rw [extractFrom, nowhere]

theorem find?_declares_eq_none_iff {line : Text} :
    families.find? (·.declares name line) = none ↔
      ∀ family ∈ families, family.declares name line = false := by
  simp only [List.find?_eq_none, Bool.not_eq_true]

theorem extractFrom_eq_none_iff :
    extractFrom families name lines = none ↔
      ∀ line ∈ lines, ∀ family ∈ families, family.declares name line = false := by
  induction lines with
  | nil => simp [extractFrom]
  | cons line rest ih =>
      rw [List.forall_mem_cons, ← find?_declares_eq_none_iff]
      cases tried : families.find? (·.declares name line) with
      | some family =>
          rw [extractFrom_cons_of_some tried]
          refine iff_of_false (Option.some_ne_none _) ?_
          rintro ⟨missing, -⟩
          exact Option.some_ne_none _ missing
      | none =>
          rw [extractFrom_cons_of_none tried, ih]
          exact (and_iff_right rfl).symm

/-- **The search stops at the first line that declares the name in one of the families**, and
measures the construct in the first of these. -/
theorem extractFrom_eq_some_iff {text : Text} :
    extractFrom families name lines = some text ↔
      ∃ before line after family, lines = before ++ line :: after ∧
        (∀ row ∈ before, ∀ other ∈ families, other.declares name row = false) ∧
        families.find? (·.declares name line) = some family ∧
        text = Text.unlines ((line :: after).take (extentLength family (line :: after))) := by
  constructor
  · intro extracted
    induction lines with
    | nil => exact nomatch extracted
    | cons line rest ih =>
        cases tried : families.find? (·.declares name line) with
        | some family =>
            rw [extractFrom_cons_of_some tried, Option.some_inj] at extracted
            exact ⟨[], line, rest, family, rfl, List.forall_mem_nil _, tried, extracted.symm⟩
        | none =>
            rw [extractFrom_cons_of_none tried] at extracted
            obtain ⟨before, found, after, family, rfl, above, here, text⟩ := ih extracted
            refine ⟨line :: before, found, after, family, rfl, ?_, here, text⟩
            exact List.forall_mem_cons.2 ⟨find?_declares_eq_none_iff.1 tried, above⟩
  · rintro ⟨before, line, after, family, rfl, above, tried, rfl⟩
    induction before with
    | nil => exact extractFrom_cons_of_some tried
    | cons first before ih =>
        obtain ⟨here, later⟩ := List.forall_mem_cons.1 above
        rw [List.cons_append, extractFrom_cons_of_none (find?_declares_eq_none_iff.2 here)]
        exact ih later

/-! ## The construct that is shown -/

/-- A name that is reported once is declared once, and reported from that declaration. -/
theorem declared_of_reported_once {family : Family} {content : Text} {path : String}
    (read : parser.familyOf path content.lines = family) {construct : Construct}
    (once : ((parser.parse content path).data ++ (parser.parse content path).outputs).filter
      (·.name == name) = [construct]) :
    ∃ declaration ∈ declarations family content.lines, declaration.name = name ∧
      (∀ other ∈ declarations family content.lines, other.name = name → other = declaration) ∧
      construct = parser.construct family content.lines declaration := by
  have reported := (parse_perm parser content path).filter (·.name == name)
  rw [once, constructs, read, List.filter_map] at reported
  obtain ⟨declaration, alone, same⟩ :=
    List.map_eq_singleton_iff.1 (List.singleton_perm.1 reported).symm
  have among : ∀ other, other ∈ declarations family content.lines ∧ other.name = name ↔
      other = declaration := by
    intro other
    rw [← List.mem_singleton (b := declaration), ← alone, List.mem_filter]
    exact and_congr_right fun _ => beq_iff_eq.symm
  obtain ⟨member, named⟩ := (among declaration).2 rfl
  exact ⟨declaration, member, named, fun other member named => (among other).1 ⟨member, named⟩,
    same.symm⟩

/-- Blocks with the same text begin with the same line and are equally long. -/
theorem block_eq_of_text_eq {line other : Text} {after behind : List Text} {m n : Nat}
    (free : ∀ row ∈ line :: after, '\n' ∉ row) (otherFree : ∀ row ∈ other :: behind, '\n' ∉ row)
    (someLine : 0 < m) (someOther : 0 < n) (within : m ≤ (line :: after).length)
    (otherWithin : n ≤ (other :: behind).length)
    (same : Text.unlines ((line :: after).take m) = Text.unlines ((other :: behind).take n)) :
    line = other ∧ m = n := by
  have block : ∀ {head : Text} {tail : List Text} {k : Nat}, 0 < k →
      (∀ row ∈ head :: tail, '\n' ∉ row) →
      (Text.unlines ((head :: tail).take k)).lines = (head :: tail).take k := by
    intro head tail k positive free
    refine Text.lines_unlines ?_ fun row member => free row (List.mem_of_mem_take member)
    simp [Nat.ne_of_gt positive]
  have blocks := congrArg Text.lines same
  rw [block someLine free, block someOther otherFree] at blocks
  have lengths := congrArg List.length blocks
  rw [List.length_take_of_le within, List.length_take_of_le otherWithin] at lengths
  refine ⟨?_, lengths⟩
  have heads := congrArg List.head? blocks
  rw [List.head?_take, List.head?_take, if_neg (Nat.ne_of_gt someLine),
    if_neg (Nat.ne_of_gt someOther)] at heads
  exact Option.some.inj heads

/-- Nothing is mistaken for a declaration if no line above it declares its name and its own line,
where it is tried first, reaches as far. -/
theorem unmistaken_iff {family : Family} {before after : List Text} {line : Text} {name : String}
    {kind : ConstructKind} :
    Declaration.Unmistaken
        ⟨name, kind, before.length, before.length + extentLength family (line :: after)⟩ family
        (before ++ line :: after) ↔
      (∀ row ∈ before, ∀ other ∈ Family.all, other.declares name row = false) ∧
        ∀ other, Family.all.find? (·.declares name line) = some other →
          extentLength other (line :: after) = extentLength family (line :: after) := by
  have here : (before ++ line :: after)[before.length]? = some line := by simp
  constructor
  · rintro ⟨above, extent⟩
    rw [List.take_left] at above
    rw [Declaration.triedFirst, here, List.drop_left] at extent
    exact ⟨above, extent⟩
  · rintro ⟨above, extent⟩
    refine ⟨?_, ?_⟩
    · rwa [List.take_left]
    · rw [Declaration.triedFirst, here, List.drop_left]
      exact extent

/-- **The source found first is that of the only declaration of a name exactly if nothing is
mistaken for it.** -/
theorem extractFrom_eq_text_iff {family : Family} {declaration : Declaration}
    (free : ∀ row ∈ lines, '\n' ∉ row) (member : declaration ∈ declarations family lines)
    (only : ∀ other ∈ declarations family lines, other.name = declaration.name →
      other = declaration) :
    extractFrom Family.all declaration.name lines = some (declaration.text lines) ↔
      declaration.Unmistaken family lines := by
  obtain ⟨before, line, after, name, kind, rfl, declared, rfl⟩ := mem_declarations_iff.1 member
  have text : Declaration.text
      ⟨name, kind, before.length, before.length + extentLength family (line :: after)⟩
      (before ++ line :: after) =
        Text.unlines ((line :: after).take (extentLength family (line :: after))) := by
    rw [Declaration.text, List.drop_left, Nat.add_sub_cancel_left]
  rw [text, unmistaken_iff, extractFrom_eq_some_iff]
  constructor
  · rintro ⟨above, found, below, first, cut, unnamed, tried, same⟩
    obtain ⟨rfl, lengths⟩ := block_eq_of_text_eq
      (fun row member => free row (List.mem_append_right _ member))
      (fun row member => free row (cut ▸ List.mem_append_right _ member))
      (extentLength_pos family line after) (extentLength_pos first found below)
      (extentLength_le family _) (extentLength_le first _) same
    -- The line that was found declares the name too, so it is the line of the declaration.
    have again := only _
      (mem_declarations_iff.2 ⟨above, line, below, name, kind, cut, declared, rfl⟩) rfl
    obtain ⟨rfl, same⟩ := List.append_inj cut (Declaration.mk.inj again).2.2.1.symm
    obtain ⟨-, rfl⟩ := List.cons.inj same
    refine ⟨unnamed, fun other triedFirst => ?_⟩
    cases tried.symm.trans triedFirst
    exact lengths.symm
  · rintro ⟨above, extent⟩
    have declares : family.declares name line = true := by simp [Family.declares, declared]
    have tried : (Family.all.find? (·.declares name line)).isSome = true :=
      List.find?_isSome.2 ⟨family, family.mem_all, declares⟩
    obtain ⟨first, tried⟩ := Option.isSome_iff_exists.1 tried
    exact ⟨before, line, after, first, rfl, above, tried, by rw [extent first tried]⟩

/-- **What is shown for a construct that a file reports once.**  Some source is shown.  It is that
of the construct exactly if nothing is mistaken for its declaration, and then it has the fingerprint
that is reported. -/
theorem extract?_of_known (unforced : parser.family? = none) {path : String} {family : Family}
    (known : Family.ofPath? (Path.ofString path) = some family) {content : Text}
    {construct : Construct}
    (once : ((parser.parse content path).data ++ (parser.parse content path).outputs).filter
      (·.name == name) = [construct]) :
    ∃ declaration ∈ declarations family content.lines,
      construct = parser.construct family content.lines declaration ∧
      ∃ text, parser.extract? content name = some text ∧
        (text = declaration.text content.lines ↔
          declaration.Unmistaken family content.lines) ∧
        (declaration.Unmistaken family content.lines →
          construct.fingerprint =
            some (fingerprint parser.settings family.commentStyle text)) := by
  have read : parser.familyOf path content.lines = family := by
    rw [familyOf, unforced, known]
    rfl
  obtain ⟨declaration, member, rfl, only, rfl⟩ := declared_of_reported_once read once
  have all : parser.extract? content declaration.name =
      extractFrom Family.all declaration.name content.lines := by
    rw [extract?, unforced]
    rfl
  have shown : parser.extract? content declaration.name ≠ none := by
    rw [all]
    intro nothing
    obtain ⟨before, line, after, name, kind, cut, declared, rfl⟩ := mem_declarations_iff.1 member
    have unnamed := extractFrom_eq_none_iff.1 nothing line (by simp [cut]) family family.mem_all
    simp [Family.declares, declared] at unnamed
  obtain ⟨text, found⟩ := Option.ne_none_iff_exists'.1 shown
  have whose := extractFrom_eq_text_iff (fun row => Text.not_mem_of_mem_lines) member only
  rw [← all, found, Option.some_inj] at whose
  refine ⟨declaration, member, rfl, text, found, whose, fun unmistaken => ?_⟩
  rw [whose.2 unmistaken]
  rfl

/-- A function that is called in a sum above its definition. -/
def calledInSum : Text :=
  "def main(x):\n    return 1 + compute(x)\n\n\ndef compute(x):\n    return x * 2\n".toList

/-- The call is not mistaken for the definition. -/
theorem extract?_of_known_called_in_sum :
    Family.ofPath? (Path.ofString "a.py") = some .python ∧
      extract? {} calledInSum "compute" = some "def compute(x):\n    return x * 2".toList ∧
      fingerprint {} .hash "def compute(x):\n    return x * 2".toList = "d4cbbd9618a00aa7" := by
  have unforced : SourceParser.family? {} = none := rfl
  have known : Family.ofPath? (Path.ofString "a.py") = some .python := by decide +kernel
  have once : ((parse {} calledInSum "a.py").data ++ (parse {} calledInSum "a.py").outputs).filter
      (·.name == "compute") =
        [⟨"compute", .callable, some "d4cbbd9618a00aa7"⟩] := by decide +kernel
  have declared : declarations .python calledInSum.lines =
      [⟨"main", .callable, 0, 2⟩, ⟨"compute", .callable, 4, 6⟩] := by decide +kernel
  obtain ⟨declaration, member, reported, text, shown, whose, agrees⟩ :=
    extract?_of_known unforced known once
  have named := congrArg Construct.name reported
  rw [declared] at member
  simp only [List.mem_cons, List.not_mem_nil, or_false] at member
  rcases member with rfl | rfl
  · exact absurd named (by decide)
  · have unmistaken : Declaration.Unmistaken ⟨"compute", .callable, 4, 6⟩ .python
        calledInSum.lines := by decide +kernel
    have own : Declaration.text ⟨"compute", .callable, 4, 6⟩ calledInSum.lines =
        "def compute(x):\n    return x * 2".toList := by decide +kernel
    obtain rfl := (whose.2 unmistaken).trans own
    exact ⟨known, shown, (Option.some.inj (agrees unmistaken)).symm⟩

/-- A function whose result is returned by a call above its definition. -/
def calledInReturn : Text :=
  "def main(x):\n    return compute(x)\n\n\ndef compute(x):\n    return x * 2\n".toList

/-- The call is shown for the function, as a declaration with the result type `return`. -/
theorem snippet_is_a_call :
    ¬∀ (path : String) (family : Family), Family.ofPath? (Path.ofString path) = some family →
      ∀ (content : Text) (name : String) (construct : Construct),
        ((parse {} content path).data ++ (parse {} content path).outputs).filter
          (·.name == name) = [construct] →
        ∃ text, extract? {} content name = some text ∧
          construct.fingerprint = some (fingerprint {} family.commentStyle text) := by
  intro agree
  have once : ((parse {} calledInReturn "a.py").data ++
      (parse {} calledInReturn "a.py").outputs).filter (·.name == "compute") =
        [⟨"compute", .callable, some "d4cbbd9618a00aa7"⟩] := by decide +kernel
  have shown : extract? {} calledInReturn "compute" = some "    return compute(x)".toList := by
    decide +kernel
  have other : fingerprint {} .hash "    return compute(x)".toList = "0defb8418f93c1fa" := by
    decide +kernel
  obtain ⟨text, found, same⟩ :=
    agree "a.py" .python (by decide +kernel) calledInReturn "compute" _ once
  cases found.symm.trans shown
  have fingerprints := (Option.some.inj same).trans other
  exact absurd fingerprints (by decide)

end SourceParser

end Traceability
