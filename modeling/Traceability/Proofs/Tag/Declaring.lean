/-
# Traceability.Proofs.Tag.Declaring -- the line that a tag goes above

`DeclarationLine` writes out what a line that declares a name looks like: blanks,
qualifiers with blanks behind each, a keyword and blanks, perhaps a receiver in
parentheses, and the name, which ends there as a word.  The pattern finds exactly
these lines, and there is only one way to see the blanks in front: they are all the
blanks that the line begins with (`declarationLine_iff`).

So a tag without line feeds is one more line at one index
(`insertTag_inserts_line`): that of the first line that declares the construct,
with its blanks and its line end, or the top of the text.
-/
import Traceability.Proofs.Source.Comment
import Traceability.Proofs.Tag
import Traceability.Proofs.Text.Pattern

namespace Traceability

set_option autoImplicit false

/-! ## Lines that declare a name, written out -/

/-- At least one blank, and nothing else. -/
def IsGap (text : Text) : Prop := text ≠ [] ∧ ∀ c ∈ text, Text.isBlank c = true

/-- A text in parentheses, without a closing one inside. -/
def IsParenthesised (text : Text) : Prop := ∃ inside, text = '(' :: inside ++ [')'] ∧ ')' ∉ inside

/-- A qualifier and the blanks behind it: one of the words, or a visibility with a scope or
without. -/
inductive IsQualifier : Text → Prop where
  | word {word : String} {gap : Text} (among : word ∈ qualifierWords) (isGap : IsGap gap) :
      IsQualifier (word.toList ++ gap)
  | visibility {scope gap : Text} (isScope : scope = [] ∨ IsParenthesised scope)
      (isGap : IsGap gap) : IsQualifier ("pub".toList ++ scope ++ gap)

/-- What may stand between a keyword and a name: the receiver of a method. -/
def IsReceiver (text : Text) : Prop :=
  text = [] ∨ ∃ owner blanks, text = owner ++ blanks ∧ IsParenthesised owner ∧
    ∀ c ∈ blanks, Text.isBlank c = true

/-- A word ends or begins between the two texts. -/
def IsWordEdge (before after : Text) : Prop :=
  before.getLast?.any Text.isWord ≠ after.head?.any Text.isWord

/-- What stands in front of a declared name. -/
def IsLead (lead : Text) : Prop :=
  ∃ (qualified : List Text) (keyword : String) (gap receiver : Text),
    lead = qualified.flatten ++ keyword.toList ++ gap ++ receiver ∧
      (∀ qualifier ∈ qualified, IsQualifier qualifier) ∧ keyword ∈ declarationWords ∧ IsGap gap ∧
      IsReceiver receiver

/-- The line declares the name behind these blanks. -/
def DeclarationLine (indent name line : Text) : Prop :=
  ∃ lead rest, line = indent ++ (lead ++ name ++ rest) ∧ (∀ c ∈ indent, Text.isBlank c = true) ∧
    IsLead lead ∧ IsWordEdge name rest

/-- Every keyword and every qualifier begins with a visible character. -/
theorem exists_visible_of_word {word : String}
    (among : word ∈ qualifierWords ++ declarationWords) :
    ∃ c rest, word.toList = c :: rest ∧ Text.isBlank c = false := by
  have begins : ∀ word ∈ qualifierWords ++ declarationWords,
      word.toList.head?.any (fun c => !Text.isBlank c) = true := by decide
  obtain ⟨c, head, visible⟩ := (Option.any_eq_true _ _).1 (begins word among)
  obtain ⟨rest, letters⟩ := List.head?_eq_some_iff.1 head
  exact ⟨c, rest, letters, by simpa using visible⟩

theorem IsQualifier.visible {text : Text} (isQualifier : IsQualifier text) :
    ∃ c rest, text = c :: rest ∧ Text.isBlank c = false := by
  cases isQualifier with
  | @word word gap among isGap =>
      obtain ⟨c, rest, letters, visible⟩ := exists_visible_of_word (List.mem_append_left _ among)
      exact ⟨c, rest ++ gap, by rw [letters, List.cons_append], visible⟩
  | @visibility scope gap isScope isGap =>
      exact ⟨'p', ['u', 'b'] ++ scope ++ gap, rfl, by decide⟩

theorem IsLead.visible {lead : Text} (isLead : IsLead lead) :
    ∃ c rest, lead = c :: rest ∧ Text.isBlank c = false := by
  obtain ⟨qualified, keyword, gap, receiver, rfl, qualifiers, among, -, -⟩ := isLead
  cases qualified with
  | nil =>
      obtain ⟨c, rest, letters, visible⟩ :=
        exists_visible_of_word (List.mem_append_right qualifierWords among)
      exact ⟨c, rest ++ gap ++ receiver, by rw [letters]; rfl, visible⟩
  | cons qualifier qualified =>
      obtain ⟨c, rest, rfl, visible⟩ := (qualifiers qualifier List.mem_cons_self).visible
      exact ⟨c, _, rfl, visible⟩

/-! ## The pattern finds these lines -/

namespace Pattern

theorem fits_gap {used rest : Text} : gap.Fits used rest ↔ IsGap used := fits_some

/-- The pattern for what stands in front of a declared name. -/
def declarationLead : Pattern :=
  .all [qualifiers, .oneOf declarationWords, .gap, .optional (.seq .parenthesised .blanks)]

theorem fits_qualifier {used rest : Text} :
    (seq (alt (seq (exactly "pub".toList) (optional parenthesised)) (oneOf qualifierWords)) gap).Fits
      used rest ↔ IsQualifier used := by
  constructor
  · rintro ⟨front, space, rfl, (⟨_, scope, rfl, rfl, isScope⟩ | among), isGap⟩
    · refine .visibility ?_ (fits_gap.1 isGap)
      exact (fits_optional.1 isScope).imp_right fits_parenthesised.1
    · obtain ⟨word, isWord, rfl⟩ := fits_oneOf.1 among
      exact .word isWord (fits_gap.1 isGap)
  · rintro (⟨among, isGap⟩ | ⟨isScope, isGap⟩)
    · exact ⟨_, _, rfl, Or.inr (fits_oneOf.2 ⟨_, among, rfl⟩), fits_gap.2 isGap⟩
    · refine ⟨_, _, rfl, Or.inl ⟨_, _, rfl, rfl, fits_optional.2 ?_⟩, fits_gap.2 isGap⟩
      exact isScope.imp_right fits_parenthesised.2

theorem fits_receiver {used rest : Text} :
    (optional (seq parenthesised blanks)).Fits used rest ↔ IsReceiver used := by
  rw [fits_optional]
  refine or_congr_right ?_
  constructor
  · rintro ⟨owner, space, rfl, fits, blank⟩
    exact ⟨owner, space, rfl, fits_parenthesised.1 fits, blank⟩
  · rintro ⟨owner, space, rfl, isOwner, blank⟩
    exact ⟨owner, space, rfl, fits_parenthesised.2 isOwner, blank⟩

theorem fits_declarationLead {used rest : Text} : declarationLead.Fits used rest ↔ IsLead used := by
  constructor
  · rintro ⟨_, _, rfl, many, _, _, rfl, word, space, receiver, rfl, isGap, isReceiver⟩
    obtain ⟨qualified, rfl, each⟩ := (fits_many fun _ _ => fits_qualifier).1 many
    obtain ⟨keyword, among, rfl⟩ := fits_oneOf.1 word
    refine ⟨qualified, keyword, space, receiver, by simp only [List.append_assoc], each, among,
      fits_gap.1 isGap, fits_receiver.1 isReceiver⟩
  · rintro ⟨qualified, keyword, space, receiver, rfl, each, among, isGap, isReceiver⟩
    exact ⟨qualified.flatten, keyword.toList ++ (space ++ receiver), by simp only [List.append_assoc],
      (fits_many fun _ _ => fits_qualifier).2 ⟨qualified, rfl, each⟩, keyword.toList, space ++ receiver,
      rfl, fits_oneOf.2 ⟨keyword, among, rfl⟩, space, receiver, rfl, fits_gap.2 isGap,
      fits_receiver.2 isReceiver⟩

theorem fits_nameEnd {name used rest : Text} :
    (nameEnd name).Fits used rest ↔ used = [] ∧ IsWordEdge name rest := by
  have letter : ∀ c : Option Char, (c.map Text.isWord).getD false = c.any Text.isWord := by
    rintro (_ | c) <;> rfl
  unfold nameEnd IsWordEdge
  rw [letter]
  cases name.getLast?.any Text.isWord <;> simp [Fits, wordEnd, wordStart, letter]

/-- What declares a name is a lead, the name and the edge of a word. -/
theorem fits_declarationPattern {name used rest : Text} :
    (declarationPattern name).Fits used rest ↔
      ∃ lead, used = lead ++ name ∧ IsLead lead ∧ IsWordEdge name rest := by
  have parts : (declarationPattern name).Fits used rest ↔
      (declarationLead.seq (all [exactly name, nameEnd name])).Fits used rest :=
    fits_all_append [qualifiers, oneOf declarationWords, gap, optional (seq parenthesised blanks)] _
  rw [parts]
  constructor
  · rintro ⟨lead, _, rfl, isLead, _, _, rfl, rfl, ends⟩
    obtain ⟨rfl, edge⟩ := fits_nameEnd.1 ends
    exact ⟨lead, by rw [List.append_nil], fits_declarationLead.1 isLead, edge⟩
  · rintro ⟨lead, rfl, isLead, edge⟩
    exact ⟨lead, name, rfl, fits_declarationLead.2 isLead, name, [], (List.append_nil name).symm, rfl,
      fits_nameEnd.2 ⟨rfl, edge⟩⟩

end Pattern

theorem declaresName_iff {name line : Text} :
    declaresName name line = true ↔
      ∃ lead rest, line.trimLeft = lead ++ name ++ rest ∧ IsLead lead ∧ IsWordEdge name rest := by
  rw [declaresName, Pattern.accepts_iff]
  simp only [Pattern.fits_declarationPattern]
  constructor
  · rintro ⟨_, rest, cut, lead, rfl, isLead, edge⟩
    exact ⟨lead, rest, cut, isLead, edge⟩
  · rintro ⟨lead, rest, cut, isLead, edge⟩
    exact ⟨_, rest, cut, lead, rfl, isLead, edge⟩

/-- **A line declares a name behind its indentation**, and behind no other blanks. -/
theorem declarationLine_iff {indent name line : Text} :
    DeclarationLine indent name line ↔ declaresName name line = true ∧ indent = line.indentation := by
  rw [declaresName_iff]
  constructor
  · rintro ⟨lead, rest, rfl, blank, isLead, edge⟩
    obtain ⟨c, others, rfl, visible⟩ := isLead.visible
    have indentation := Text.indentation_append_cons blank visible (others ++ name ++ rest)
    have whole := Text.indentation_append_trimLeft (indent ++ (c :: others ++ name ++ rest))
    simp only [List.cons_append] at whole ⊢
    rw [indentation] at whole ⊢
    exact ⟨⟨c :: others, rest, List.append_cancel_left whole, isLead, edge⟩, rfl⟩
  · rintro ⟨⟨lead, rest, cut, isLead, edge⟩, rfl⟩
    refine ⟨lead, rest, ?_, fun c member => Text.isBlank_of_mem_indentation member, isLead, edge⟩
    rw [← cut, Text.indentation_append_trimLeft]

theorem not_declarationLine {name line : Text} (other : declaresName name line = false)
    (indent : Text) : ¬ DeclarationLine indent name line := by
  rw [declarationLine_iff, other]
  exact fun ⟨declares, _⟩ => Bool.false_ne_true declares

/-! ## One line more -/

/-- Where a tag goes among lines, and the line that it makes there.  An empty name names nothing. -/
inductive TagPosition (lines : List Text) (tag : Text) (construct : Option String) :
    Nat → Text → Prop where
  /-- Above the first line that declares the construct, behind the blanks of that line. -/
  | above {name : String} {k : Nat} {line : Text} (named : construct = some name)
      (nonempty : name ≠ "") (there : lines[k]? = some line)
      (declares : ∀ indent, DeclarationLine indent name.toList line ↔ indent = line.indentation)
      (first : ∀ earlier ∈ lines.take k, ∀ indent, ¬ DeclarationLine indent name.toList earlier) :
      TagPosition lines tag construct k (line.indentation ++ tag ++ lineReturn line)
  /-- On top, when no line declares the construct or none is named. -/
  | onTop {first : Text} (top : lines.head? = some first)
      (nowhere : ∀ name, construct = some name → name ≠ "" →
        ∀ line ∈ lines, ∀ indent, ¬ DeclarationLine indent name.toList line) :
      TagPosition lines tag construct 0 (tag ++ lineReturn first)

/-- **A tag without line feeds is one line more**, at one index, and leaves all the others as they
are. -/
theorem insertTag_inserts_line {tag : Text} (free : '\n' ∉ tag) (content : Text)
    (construct : Option String) :
    ∃ k piece, TagPosition content.lines tag construct k piece ∧
      (insertTag content tag construct).lines =
        content.lines.take k ++ piece :: content.lines.drop k := by
  have returnFree : ∀ line ∈ content.lines, '\n' ∉ lineReturn line :=
    fun line member feed => Text.not_mem_of_mem_lines member (mem_line_of_mem_lineReturn feed)
  rcases insertTag_cases content tag construct with
    ⟨name, before, line, after, named, nonempty, split, declares, first, tagged⟩ |
    ⟨nowhere, first, others, split, tagged⟩
  · have member : line ∈ content.lines := by
      rw [split]
      exact List.mem_append_right _ List.mem_cons_self
    have pieceFree : '\n' ∉ line.indentation ++ tag ++ lineReturn line := by
      have blanksFree : '\n' ∉ line.indentation :=
        fun feed => Text.not_mem_of_mem_lines member ((List.takeWhile_prefix _).subset feed)
      simp only [List.mem_append, not_or]
      exact ⟨⟨blanksFree, free⟩, returnFree line member⟩
    have take : content.lines.take before.length = before := by rw [split, List.take_left]
    have drop : content.lines.drop before.length = line :: after := by rw [split, List.drop_left]
    refine ⟨before.length, line.indentation ++ tag ++ lineReturn line,
      .above named nonempty ?_ ?_ ?_, ?_⟩
    · rw [split, List.getElem?_append_right (Nat.le_refl _), Nat.sub_self, List.getElem?_cons_zero]
    · intro indent
      rw [declarationLine_iff, declares, eq_self, true_and]
    · rw [take]
      exact fun earlier among => not_declarationLine (first earlier among)
    · rw [take, drop, tagged, Text.lines_unlines_insert split pieceFree]
  · have pieceFree : '\n' ∉ tag ++ lineReturn first := by
      have member : first ∈ content.lines := by
        rw [split]
        exact List.mem_cons_self
      simp only [List.mem_append, not_or]
      exact ⟨free, returnFree first member⟩
    refine ⟨0, tag ++ lineReturn first, .onTop ?_ ?_, ?_⟩
    · rw [split, List.head?_cons]
    · exact fun name named nonempty line member =>
        not_declarationLine (nowhere name named nonempty line member)
    · have inserted := Text.lines_unlines_insert (List.nil_append content.lines).symm pieceFree
      rw [tagged, List.take_zero, List.drop_zero]
      exact inserted

/-- A text with line ends of two kinds, in which a longer name is declared above the name `g`. -/
def mixedText : Text :=
  "import g\n  pub(crate) unsafe fn gg()\n\texport async func (r) g(\r\nfn g\n".toList

theorem insertTag_inserts_line_mixed :
    '\n' ∉ "# R1".toList ∧
      insertTag mixedText "# R1".toList (some "g") =
        ("import g\n  pub(crate) unsafe fn gg()\n" ++
          "\t# R1\r\n\texport async func (r) g(\r\nfn g\n").toList ∧
      ∃ k piece, TagPosition mixedText.lines "# R1".toList (some "g") k piece ∧
        (insertTag mixedText "# R1".toList (some "g")).lines =
          mixedText.lines.take k ++ piece :: mixedText.lines.drop k :=
  ⟨by decide, by decide +kernel, insertTag_inserts_line (by decide) mixedText (some "g")⟩

end Traceability
