/-
# Traceability.Proofs.Source.Tagging -- a tag changes no structure

A tag that is a comment of the indented family is a note: put on top, or right
above a line with that line's indentation (`note_of_tag`).  A construct that starts
above it reaches one line further if it covers the tag and no further if it does
not, and its logic is the same either way; the tag itself opens none.  So the
structure of the text stays as it is (`parse_insertTag`).

The argument goes along the lines, on what is left of them: `constructsOf` gives
the constructs without counting lines, and is what `parse` lists
(`map_construct_declarations`).
-/
import Traceability.Proofs.Tag
import Traceability.Proofs.Source.Declaration
import Traceability.Proofs.Source.Extent
import Traceability.Proofs.Source.Structure

namespace Traceability

set_option autoImplicit false

/-! ## Notes declare nothing -/

theorem declared?_note {note : Text} (isNote : isNote note = true) :
    declared? .python note = none := by
  obtain ⟨rest, behind⟩ := List.head?_eq_some_iff.1 (eq_of_beq isNote)
  refine declared?_eq_none ?_
  rw [behind]
  exact (by decide : Text.isWord '#' = false)

/-- A line that declares a name is not blank. -/
theorem isBlankText_of_declaresName {name line : Text} (declares : declaresName name line = true) :
    line.isBlankText = false := by
  rw [Bool.eq_false_iff]
  intro blank
  have nothing : line.trimLeft = [] := Text.trimLeft_of_blank (List.all_eq_true.1 blank)
  have refused : (declarationPattern name).accepts [] = false := by
    simp [Pattern.accepts, declarationPattern, Pattern.all, Pattern.rests, qualifiers,
      Pattern.repeatRests, declarationWords, Pattern.oneOf]
  rw [declaresName, nothing, refused] at declares
  exact Bool.false_ne_true declares

/-- A tag that begins with a number sign is a note at the place where it goes. -/
theorem note_of_tag {before after : List Text} {indent tag : Text}
    (place : IsTagPlace before indent after) (mark : tag.head? = some '#') (finish : Text) :
    isNote (indent ++ tag ++ finish) = true ∧
      (before = [] ∨ ∃ next rest, after = next :: rest ∧
        StandsAbove (indent ++ tag ++ finish) next) := by
  obtain ⟨rest, rfl⟩ := List.head?_eq_some_iff.1 mark
  have visible : Text.isBlank '#' = false := by decide
  have parts : indent ++ '#' :: rest ++ finish = indent ++ '#' :: (rest ++ finish) := by simp
  have blank : ∀ c ∈ indent, Text.isBlank c = true := by
    rcases place with ⟨-, rfl⟩ | ⟨name, line, below, -, -, rfl⟩
    · exact nofun
    · exact fun c member => Text.isBlank_of_mem_indentation member
  have note : isNote (indent ++ '#' :: rest ++ finish) = true := by
    rw [isNote, parts, Text.trimLeft_append blank, Text.trimLeft,
      List.dropWhile_cons_of_neg (by rw [visible]; exact Bool.false_ne_true)]
    rfl
  refine ⟨note, ?_⟩
  rcases place with ⟨top, -⟩ | ⟨name, line, below, split, declares, aligned⟩
  · exact Or.inl top
  · refine Or.inr ⟨line, below, split, note, isBlankText_of_declaresName declares, ?_⟩
    rw [indentWidth, parts, Text.indentation_append_cons blank visible, aligned, indentWidth]

/-! ## The constructs of lines -/

namespace SourceParser

variable (parser : SourceParser) (family : Family)

/-- The construct that the first of some lines opens. -/
def opened? : List Text → Option Construct
  | [] => none
  | line :: rest => (declared? family line).map fun (name, kind) =>
      ⟨name, kind, some (fingerprint parser.settings family.commentStyle
        (Text.unlines ((line :: rest).take (extentLength family (line :: rest)))))⟩

/-- The constructs that some lines open, one after the other. -/
def constructsOf : List Text → List Construct
  | [] => []
  | line :: rest => (parser.opened? family (line :: rest)).toList ++ constructsOf rest

/-- The constructs of a text are those that its lines open. -/
theorem map_construct_declarations (lines : List Text) :
    (declarations family lines).map (parser.construct family lines) =
      parser.constructsOf family lines := by
  induction lines with
  | nil => rfl
  | cons line rest ih =>
      have below : parser.construct family (line :: rest) ∘ Declaration.below =
          parser.construct family rest := funext fun declaration =>
        construct_below family declaration line rest
      rw [declarations_cons, List.map_append, List.map_map, below, ih, constructsOf, opened?,
        declaredFirst]
      cases declared? family line with
      | none => rfl
      | some declared =>
          simp only [Option.map_some, Option.toList_some, List.map_cons, List.map_nil, construct,
            Declaration.text, List.drop_zero, Nat.sub_zero]

end SourceParser

/-! ## Constructs around a note -/

/-- The logic of a stretch of lines does not change with a note in it or behind it. -/
theorem normalizeLogic_take {front after : List Text} {note : Text} (isNote : isNote note = true)
    (nonempty : front ≠ []) (free : ∀ line ∈ front ++ note :: after, '\n' ∉ line)
    {length stretched : Nat} (stretches : Stretches front.length length stretched) :
    normalizeLogic .hash (Text.unlines ((front ++ note :: after).take stretched)) =
      normalizeLogic .hash (Text.unlines ((front ++ after).take length)) := by
  rcases stretches with ⟨ends, rfl⟩ | ⟨goesOn, rfl⟩
  · rw [List.take_append_of_le_length ends, List.take_append_of_le_length ends]
  · obtain ⟨behind, rfl⟩ := Nat.exists_eq_add_of_le (Nat.le_of_lt goesOn)
    rw [Nat.add_assoc, List.take_length_add_append, List.take_length_add_append,
      List.take_succ_cons]
    have within : front ++ note :: after.take behind ⊆ front ++ note :: after :=
      ((List.Sublist.refl front).append ((List.take_sublist behind after).cons_cons note)).subset
    apply normalizeLogic_note isNote (by simp [nonempty])
    exact fun line member => free line (within member)

namespace SourceParser

variable (parser : SourceParser)

/-- A construct that starts above a note stays as it is. -/
theorem opened?_note {note next first : Text} {front after : List Text}
    (above : StandsAbove note next)
    (free : ∀ line ∈ first :: front ++ note :: next :: after, '\n' ∉ line) :
    parser.opened? .python (first :: front ++ note :: next :: after) =
      parser.opened? .python (first :: front ++ next :: after) := by
  have logic := normalizeLogic_take above.isNote (List.cons_ne_nil first front) free
    (indentedLength_note above first front after)
  simp only [List.cons_append] at logic ⊢
  simp only [opened?, fingerprint, Family.commentStyle, extentLength, logic]

/-- **A note opens no construct and changes none.** -/
theorem constructsOf_note {note : Text} (isNote : isNote note = true) {before after : List Text}
    (place : before = [] ∨ ∃ next rest, after = next :: rest ∧ StandsAbove note next)
    (free : ∀ line ∈ before ++ note :: after, '\n' ∉ line) :
    parser.constructsOf .python (before ++ note :: after) =
      parser.constructsOf .python (before ++ after) := by
  induction before with
  | nil =>
      rw [List.nil_append, List.nil_append, constructsOf, opened?, declared?_note isNote]
      rfl
  | cons first front ih =>
      obtain ⟨next, rest, rfl, above⟩ : ∃ next rest, after = next :: rest ∧ StandsAbove note next :=
        place.resolve_left (List.cons_ne_nil first front)
      have here := opened?_note parser above free
      have later := ih (Or.inr ⟨next, rest, rfl, above⟩)
        fun line member => free line (List.mem_cons_of_mem first member)
      simp only [List.cons_append, constructsOf] at here later ⊢
      rw [here, later]

/-! ## The family -/

/-- A text that is read in the indented family still is when lines are added. -/
theorem familyOf_eq_python_of_subset {path : String} {lines more : List Text}
    (python : parser.familyOf path lines = .python) (subset : lines ⊆ more) :
    parser.familyOf path more = .python := by
  refine familyOf_of_guess python fun guessed => ?_
  obtain ⟨line, member, declares⟩ := (guessFamily_eq_python_iff lines).1 guessed
  exact (guessFamily_eq_python_iff more).2 ⟨line, subset member, declares⟩

/-! ## Tagged texts -/

/-- **A tag changes no structure.**  In the indented family a tag that begins with a number sign and
has no line feed, put into a text above the declaration of any name or on top, leaves the constructs
what they are: their names, their order and their fingerprints, however these are taken. -/
theorem parse_insertTag {content tag : Text} {path : String}
    (python : parser.familyOf path content.lines = .python) (mark : tag.head? = some '#')
    (free : '\n' ∉ tag) (construct : Option String) :
    parser.parse (insertTag content tag construct) path = parser.parse content path := by
  obtain ⟨before, after, indent, finish, split, tagged, place⟩ :=
    lines_insertTag free content construct
  obtain ⟨note, where_⟩ := note_of_tag place mark finish
  have taggedFree : ∀ line ∈ (insertTag content tag construct).lines, '\n' ∉ line :=
    fun line member => Text.not_mem_of_mem_lines member
  have more : content.lines ⊆ (insertTag content tag construct).lines := by
    rw [split, tagged]
    exact ((List.Sublist.refl before).append (List.sublist_cons_self _ after)).subset
  have constructs : parser.constructsOf .python (insertTag content tag construct).lines =
      parser.constructsOf .python content.lines := by
    rw [tagged] at taggedFree ⊢
    rw [split]
    exact constructsOf_note parser note where_ taggedFree
  simp only [parse, python, familyOf_eq_python_of_subset parser python more,
    map_construct_declarations, constructs]

/-- A class with a signature over several lines, in which a line looks like a declaration. -/
def openSignature : Text :=
  "class A:\n    def f(self, x=(1,\n      def g)):\n        return x\n\n\n    y = 2\n".toList

/-- A tag above that line, inside the signature. -/
theorem parse_insertTag_open_signature :
    insertTag openSignature "# @MATRIX: R1".toList (some "g") =
        ("class A:\n    def f(self, x=(1,\n      # @MATRIX: R1\n      def g)):\n" ++
          "        return x\n\n\n    y = 2\n").toList ∧
      SourceParser.parse {} (insertTag openSignature "# @MATRIX: R1".toList (some "g")) "a.py" =
        SourceParser.parse {} openSignature "a.py" :=
  ⟨by decide +kernel, parse_insertTag {} (by decide +kernel) (by decide) (by decide) (some "g")⟩

end SourceParser

end Traceability
