/-
# Traceability.Proofs.Tag.Recognition -- tags find what the structure reports

The structure of a text and the place of a tag come from different patterns.  In
the two families that put a plain keyword in front of every name, whatever may
stand in front of a name in a form of declaration may stand there for a tag as well
(`within_declarationLead`).  So every line that declares a name in such a family is
a declaration line of that name, with its whole indentation
(`declaresName_of_declared?`), and a tag for a construct that the structure
reports never goes on top for want of a line: it goes above one that stands at the
first declaration of the construct or before it (`insertTag_above_reported`).
-/
import Traceability.Proofs.Source.Extraction
import Traceability.Proofs.Tag.Declaring

namespace Traceability

set_option autoImplicit false

/-! ## What stands in front of a name -/

namespace Pattern

/-- A keyword and blanks may stand in front of a name. -/
theorem keyword_within {word : String} (among : word ∈ declarationWords) :
    (seq (exactly word.toList) gap).Within
      (seq (oneOf declarationWords) (seq gap (optional (seq parenthesised blanks)))) :=
  (Within.oneOf among).seq ((Within.refl gap).seq_optional _)

/-- A qualifier and blanks, or nothing, may stand in front of a keyword. -/
theorem maybeWord_within {word : String} (among : word ∈ qualifierWords) :
    (DeclarationForm.maybeWord word).Within qualifiers :=
  Within.optional_many fun _ _ fits => by
    obtain ⟨front, back, rfl, isWord, isGap⟩ := fits
    exact ⟨front, back, rfl, Or.inr (Within.oneOf among isWord), isGap⟩

/-- **What stands in front of a name in the structure may stand there for a tag**, in a family with
plain keywords. -/
theorem within_declarationLead {family : Family} (keyworded : family ∈ [Family.python, .go])
    {form : DeclarationForm} (among : form ∈ DeclarationForm.ofFamily family) :
    form.lead.Within declarationLead := by
  simp only [List.mem_cons, List.not_mem_nil, or_false] at keyworded
  rcases keyworded with rfl | rfl
  · simp only [DeclarationForm.ofFamily, List.mem_cons, List.not_mem_nil, or_false] at among
    rcases among with rfl | rfl
    · exact (maybeWord_within (by decide)).seq (keyword_within (by decide))
    · exact (keyword_within (by decide)).many_seq _
  · simp only [DeclarationForm.ofFamily, List.mem_cons, List.not_mem_nil, or_false] at among
    rcases among with rfl | rfl
    · exact ((Within.oneOf (by decide)).seq (Within.refl _)).many_seq _
    · exact (keyword_within (by decide)).many_seq _

end Pattern

/-! ## Lines -/

/-- The name at the beginning of a text is a word that ends there. -/
theorem DeclarationForm.nameAt_eq_some {form : DeclarationForm} {text name : Text}
    (named : form.nameAt text = some name) :
    ∃ rest, text = name ++ rest ∧ name ≠ [] ∧ IsWordEdge name rest := by
  rw [nameAt] at named
  split at named
  · cases named
  · rename_i nonempty
    split at named
    · cases named
      rw [List.isEmpty_iff] at nonempty
      refine ⟨text.dropWhile Text.isWord, List.takeWhile_append_dropWhile.symm, nonempty, ?_⟩
      -- The last character of the name belongs to a word, and the one behind the name does not.
      have last : (text.takeWhile Text.isWord).getLast?.any Text.isWord = true := by
        rw [List.getLast?_eq_some_getLast nonempty, Option.any_some]
        exact List.all_eq_true.1 List.all_takeWhile _ (List.getLast_mem nonempty)
      have behind : (text.dropWhile Text.isWord).head?.any Text.isWord = false := by
        have stops := List.head?_dropWhile_not Text.isWord text
        cases head : (text.dropWhile Text.isWord).head? with
        | none => rfl
        | some c =>
            rw [head] at stops
            exact stops
      rw [IsWordEdge, last, behind]
      exact Bool.noConfusion
    · cases named

/-- A line that declares a name in some form has it behind its indentation and what the form leads
with. -/
theorem exists_form_of_declared? {family : Family} {line : Text} {name : String}
    {kind : ConstructKind} (declares : declared? family line = some (name, kind)) :
    ∃ form ∈ DeclarationForm.ofFamily family, ∃ lead rest, line.trimLeft = lead ++ name.toList ++ rest ∧
      form.lead.Fits lead (name.toList ++ rest) ∧ name ≠ "" ∧ IsWordEdge name.toList rest := by
  obtain ⟨form, among, inForm⟩ := List.exists_of_findSome?_eq_some declares
  obtain ⟨word, found, settled⟩ := Option.bind_eq_some_iff.1 inForm
  have same : word = name := by
    split at settled
    · cases settled
    · split at settled
      · cases settled
      · cases settled
        rfl
  subst same
  obtain ⟨letters, matched, rfl⟩ := Option.map_eq_some_iff.1 found
  obtain ⟨behind, member, named⟩ := List.exists_of_findSome?_eq_some matched
  obtain ⟨rest, rfl, nonempty, edge⟩ := form.nameAt_eq_some named
  obtain ⟨lead, cut, fits⟩ := Pattern.mem_rests_iff.1 member
  rw [← List.append_assoc] at cut
  rw [String.toList_ofList]
  refine ⟨form, among, lead, rest, cut, fits, ?_, edge⟩
  rintro empty
  exact nonempty (String.ofList_eq_empty_iff.1 empty)

/-- **A line that declares a name is a declaration line of that name**, in a family with plain
keywords. -/
theorem declaresName_of_declared? {family : Family} (keyworded : family ∈ [Family.python, .go])
    {line : Text} {name : String} {kind : ConstructKind}
    (declares : declared? family line = some (name, kind)) :
    declaresName name.toList line = true := by
  obtain ⟨form, among, lead, rest, cut, fits, -, edge⟩ := exists_form_of_declared? declares
  have isLead := Pattern.fits_declarationLead.1 (Pattern.within_declarationLead keyworded among fits)
  exact declaresName_iff.2 ⟨lead, rest, cut, isLead, edge⟩

/-- A declaration stands at a line that declares its name for a tag. -/
theorem declaresName_at_start {family : Family} (keyworded : family ∈ [Family.python, .go])
    {lines : List Text} {declaration : Declaration}
    (member : declaration ∈ declarations family lines) :
    declaration.name ≠ "" ∧ ∃ line, lines[declaration.start]? = some line ∧
      declaresName declaration.name.toList line = true := by
  obtain ⟨before, line, after, name, kind, rfl, declares, rfl⟩ := mem_declarations_iff.1 member
  obtain ⟨-, -, -, -, -, -, nonempty, -⟩ := exists_form_of_declared? declares
  refine ⟨nonempty, line, ?_, declaresName_of_declared? keyworded declares⟩
  rw [List.getElem?_append_right (Nat.le_refl _), Nat.sub_self, List.getElem?_cons_zero]

/-! ## Texts -/

/-- **A tag for a construct that is reported goes above a line that declares it**, at its first
declaration or before, in a family with plain keywords. -/
theorem insertTag_above_reported {family : Family} (keyworded : family ∈ [Family.python, .go]) :
    (∀ line name kind, declared? family line = some (name, kind) →
      ∀ indent, DeclarationLine indent name.toList line ↔ indent = line.indentation) ∧
    ∀ (parser : SourceParser) (path : String) (content tag : Text) (name : String),
      parser.familyOf path content.lines = family → (parser.parse content path).Lists name →
      ∃ before line after, content.lines = before ++ line :: after ∧
        DeclarationLine line.indentation name.toList line ∧
        insertTag content tag (some name) = Text.unlines
          (before ++ (line.indentation ++ tag ++ lineReturn line) :: line :: after) ∧
        ∀ declaration ∈ declarations family content.lines, declaration.name = name →
          before.length ≤ declaration.start := by
  constructor
  · intro line name kind declares indent
    rw [declarationLine_iff, declaresName_of_declared? keyworded declares, eq_self, true_and]
  intro parser path content tag name read lists
  obtain ⟨reported, member, rfl⟩ := SourceParser.lists_parse_iff.1 lists
  rw [read] at member
  obtain ⟨nonempty, declaring, there, declares⟩ := declaresName_at_start keyworded member
  obtain ⟨before, line, after, cut, here, first, tagged⟩ :=
    insertTag_of_declares nonempty (List.mem_of_getElem? there) declares tag
  refine ⟨before, line, after, cut, declarationLine_iff.2 ⟨here, rfl⟩, tagged, ?_⟩
  intro declaration listed same
  obtain ⟨-, other, there, declares⟩ := declaresName_at_start keyworded listed
  -- No line above the tag declares the name, so no declaration of it stands there.
  refine Nat.le_of_not_lt fun above => ?_
  rw [cut, List.getElem?_append_left above] at there
  rw [same, first other (List.mem_of_getElem? there)] at declares
  exact Bool.false_ne_true declares

/-- A module in which a method is declared behind a decorator and a call that looks alike. -/
def methodText : Text :=
  "@wraps\ndefine(run)\nclass Job(Base):\n\n    async  def\trun (self):\n        def inner():\n".toList

theorem insertTag_above_reported_method :
    Family.python ∈ [Family.python, .go] ∧
      SourceParser.familyOf {} "job.py" methodText.lines = .python ∧
      (SourceParser.parse {} methodText "job.py").Lists "run" ∧
      declared? .python "    async  def\trun (self):".toList = some ("run", .callable) ∧
      (∀ indent, DeclarationLine indent "run".toList "    async  def\trun (self):".toList ↔
        indent = "    ".toList) ∧
      ∃ before line after, methodText.lines = before ++ line :: after ∧
        DeclarationLine line.indentation "run".toList line ∧
        insertTag methodText "# R1".toList (some "run") = Text.unlines
          (before ++ (line.indentation ++ "# R1".toList ++ lineReturn line) :: line :: after) ∧
        ∀ declaration ∈ declarations .python methodText.lines, declaration.name = "run" →
          before.length ≤ declaration.start := by
  have python : SourceParser.familyOf {} "job.py" methodText.lines = .python := by decide +kernel
  have lists : (SourceParser.parse {} methodText "job.py").Lists "run" :=
    SourceParser.lists_parse_iff.2 ⟨⟨"run", .callable, 4, 6⟩, by decide +kernel, rfl⟩
  have declares : declared? .python "    async  def\trun (self):".toList = some ("run", .callable) := by
    decide +kernel
  have keyworded : Family.python ∈ [Family.python, .go] := by decide
  have recognised := insertTag_above_reported keyworded
  exact ⟨keyworded, python, lists, declares, recognised.1 _ _ _ declares,
    recognised.2 {} "job.py" methodText "# R1".toList "run" python lists⟩

end Traceability
