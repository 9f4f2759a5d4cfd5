/-
# Traceability.Proofs.Source.Structure -- what the structure of a source text depends on

A source text gives a node without children, whose constructs each have a
fingerprint.  Of its path only the last name matters for the constructs, because
it tells the language (`outputs_congr`, `data_congr`).

The declarations of a text are those of its first line and, one line further
down, those of the rest (`declarations_cons`); what they cover does not change by
that (`Declaration.text_below`).  So a declaration stands exactly where a line
declares something (`mem_declarations_iff`).

The built-in parser, with settings for its fingerprints, gives that structure
for every text (`ParserChoice.parse_eq`).
-/
import Traceability.StructuralParser

namespace Traceability

set_option autoImplicit false

theorem Family.ofPath?_congr {a b : Path} (same : a.name = b.name) :
    Family.ofPath? a = Family.ofPath? b := by
  simp only [ofPath?, Path.ending, Path.nameParts, same]

/-! ## Declarations, line by line -/

namespace Declaration

/-- The declaration, with a line put above it. -/
def below (declaration : Declaration) : Declaration :=
  { declaration with start := declaration.start + 1, stop := declaration.stop + 1 }

/-- A declaration covers the same lines when a line is put above it. -/
@[simp] theorem text_below (declaration : Declaration) (line : Text) (rest : List Text) :
    declaration.below.text (line :: rest) = declaration.text rest := by
  simp only [text, below, List.drop_succ_cons, Nat.add_sub_add_right]

end Declaration

theorem declarationsFrom_succ (family : Family) (number : Nat) (lines : List Text) :
    declarationsFrom family (number + 1) lines =
      (declarationsFrom family number lines).map Declaration.below := by
  induction lines generalizing number with
  | nil => rfl
  | cons line rest ih =>
      rw [declarationsFrom, declarationsFrom, ih]
      cases declared? family line with
      | none => rfl
      | some declared =>
          rw [List.map_cons, Declaration.below]
          simp only [Nat.add_right_comm]

/-- What the first of some lines declares. -/
def declaredFirst (family : Family) (line : Text) (rest : List Text) : Option Declaration :=
  (declared? family line).map fun (name, kind) =>
    ⟨name, kind, 0, extentLength family (line :: rest)⟩

/-- **The declarations of lines are those of the first line and of the rest.** -/
theorem declarations_cons (family : Family) (line : Text) (rest : List Text) :
    declarations family (line :: rest) =
      (declaredFirst family line rest).toList ++
        (declarations family rest).map Declaration.below := by
  rw [declarations, declarationsFrom, declarationsFrom_succ, declaredFirst]
  cases declared? family line with
  | none => rfl
  | some declared => simp only [Option.map_some, Option.toList_some, Nat.zero_add]; rfl

/-- A declaration stands where a line declares its name, and reaches as far as the extent of that
line. -/
theorem mem_declarations_iff {family : Family} {lines : List Text} {declaration : Declaration} :
    declaration ∈ declarations family lines ↔
      ∃ before line after name kind, lines = before ++ line :: after ∧
        declared? family line = some (name, kind) ∧
        declaration =
          ⟨name, kind, before.length, before.length + extentLength family (line :: after)⟩ := by
  induction lines generalizing declaration with
  | nil => simp [declarations, declarationsFrom]
  | cons first rest ih =>
      rw [declarations_cons, declaredFirst, List.mem_append, List.mem_map]
      simp only [Option.mem_toList, Option.map_eq_some_iff, ih]
      constructor
      · rintro (⟨⟨name, kind⟩, declares, rfl⟩ | ⟨_, ⟨before, line, after, name, kind, rfl,
          declares, rfl⟩, rfl⟩)
        · exact ⟨[], first, rest, name, kind, rfl, declares, by simp⟩
        · refine ⟨first :: before, line, after, name, kind, rfl, declares, ?_⟩
          simp only [Declaration.below, List.length_cons, Nat.add_right_comm]
      · rintro ⟨before, line, after, name, kind, cut, declares, rfl⟩
        cases before with
        | nil =>
            obtain ⟨rfl, rfl⟩ := List.cons.inj cut
            exact Or.inl ⟨(name, kind), declares, by simp⟩
        | cons head before =>
            obtain ⟨rfl, rfl⟩ := List.cons.inj cut
            refine Or.inr ⟨_, ⟨before, line, after, name, kind, rfl, declares, rfl⟩, ?_⟩
            simp only [Declaration.below, List.length_cons, Nat.add_right_comm]

/-! ## The family -/

/-- The indented family is tried first, so it is guessed as soon as a line declares something in
it. -/
theorem guessFamily_eq_python_iff (lines : List Text) :
    guessFamily lines = .python ↔ ∃ line ∈ lines, (declared? .python line).isSome = true := by
  rw [← List.any_eq_true, guessFamily, Family.all, List.find?_cons]
  cases lines.any fun line => (declared? .python line).isSome with
  | true => exact iff_of_true rfl rfl
  | false =>
      refine iff_of_false (fun guessed => ?_) Bool.false_ne_true
      rcases found : [Family.rust, .go, .js, .c].find? fun family =>
          lines.any fun line => (declared? family line).isSome with _ | family
      · simp only [found] at guessed
        exact nomatch guessed
      · simp only [found] at guessed
        have among := List.mem_of_find?_eq_some found
        rw [show family = .python from guessed] at among
        exact absurd among (by decide)

namespace SourceParser

variable {parser : SourceParser} {content : Text} {a b path : String}

/-- A text is read in the family of another one, if a guess that gives it there gives it here. -/
theorem familyOf_of_guess {family : Family} {lines more : List Text}
    (read : parser.familyOf path lines = family)
    (guess : guessFamily lines = family → guessFamily more = family) :
    parser.familyOf path more = family := by
  unfold familyOf at read ⊢
  cases settled : parser.family?.or (Family.ofPath? (Path.ofString path)) with
  | some fixed =>
      rw [settled] at read
      exact read
  | none =>
      rw [settled] at read
      exact guess read

theorem construct_below (family : Family) (declaration : Declaration) (line : Text)
    (rest : List Text) :
    parser.construct family (line :: rest) declaration.below =
      parser.construct family rest declaration := by
  rw [construct, Declaration.text_below]
  rfl

theorem familyOf_congr (same : (Path.ofString a).name = (Path.ofString b).name)
    (lines : List Text) : parser.familyOf a lines = parser.familyOf b lines := by
  rw [familyOf, familyOf, Family.ofPath?_congr same]

theorem outputs_congr (same : (Path.ofString a).name = (Path.ofString b).name) :
    (parser.parse content a).outputs = (parser.parse content b).outputs := by
  simp only [parse, familyOf_congr same]

theorem data_congr (same : (Path.ofString a).name = (Path.ofString b).name) :
    (parser.parse content a).data = (parser.parse content b).data := by
  simp only [parse, familyOf_congr same]

/-- Every construct has a fingerprint. -/
theorem exists_fingerprint {construct : Construct}
    (member : construct ∈ (parser.parse content path).data ++ (parser.parse content path).outputs) :
    ∃ text, construct.fingerprint = some (contentHash parser.settings text) := by
  simp only [parse, List.mem_append, List.mem_filter, ← and_or_left] at member
  obtain ⟨declaration, -, rfl⟩ := List.mem_map.1 member.1
  exact ⟨_, rfl⟩

end SourceParser

namespace ParserChoice

variable {choice : ParserChoice}

/-- The built-in parser, with fingerprints taken in one way. -/
def sourceParser (choice : ParserChoice) (settings : FingerprintSettings) : SourceParser :=
  ⟨choice.family?, settings⟩

/-- **The built-in parser reads every text**, once it is settled how fingerprints are taken. -/
theorem parse_eq {settings : FingerprintSettings} (settled : choice.settings = .ok settings)
    (content : Text) (path : String) :
    choice.parse content path = .ok ((choice.sourceParser settings).parse content path) := by
  rw [sourceParser]
  have family : SourceParser.familyOf ⟨choice.family?, {}⟩ path content.lines =
      SourceParser.familyOf ⟨choice.family?, settings⟩ path content.lines := rfl
  simp only [ParserChoice.parse, settled, family]
  split
  · rename_i nothing
    have declares := List.isEmpty_iff.1 nothing
    simp only [SourceParser.parse, family, declares, List.map_nil, List.filter_nil]
    rfl
  · rfl

end ParserChoice

end Traceability
