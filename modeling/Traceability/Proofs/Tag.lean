/-
# Traceability.Proofs.Tag -- what a tag does to a text

A text with a tag has the lines of the text and one piece more, which is the tag
between blanks and a carriage return that lines of the text have as well
(`insertTag_spec`).  So the tag stands in it (`infix_insertTag`), and no character
comes in that is neither the tag's nor the text's, the line feed apart
(`mem_insertTag`).

A tag without line feeds makes one new line among the old ones, on top or right
above a line that declares a name (`lines_insertTag`).
-/
import Traceability.Proofs.Text.Occurrence
import Traceability.Tag

namespace Traceability

set_option autoImplicit false

/-! ## Composing -/

/-- The composed tag ends in the expected tag. -/
theorem suffix_composeTag (language : Language) (sources : List String) (expected : String) :
    expected.toList <:+ composeTag language sources expected := by
  unfold composeTag
  split
  · rename_i empty
    rw [empty]
    exact List.nil_suffix
  · split
    · exact List.suffix_refl _
    · rw [String.toList_append]
      exact List.suffix_append _ _

theorem mem_intercalate {separator : Text} {pieces : List Text} {c : Char}
    (member : c ∈ separator.intercalate pieces) : c ∈ separator ∨ ∃ piece ∈ pieces, c ∈ piece := by
  induction pieces with
  | nil => exact absurd member List.not_mem_nil
  | cons piece others ih =>
      cases others with
      | nil =>
          rw [List.intercalate_singleton] at member
          exact Or.inr ⟨piece, List.mem_cons_self, member⟩
      | cons next rest =>
          rw [List.intercalate_cons_cons, List.mem_append, List.mem_append] at member
          rcases member with (here | between) | later
          · exact Or.inr ⟨piece, List.mem_cons_self, here⟩
          · exact Or.inl between
          · exact (ih later).imp_right fun ⟨other, among, within⟩ =>
              ⟨other, List.mem_cons_of_mem _ among, within⟩

/-- The characters of comment marks, of the mark of tags and of what stands between sources. -/
def tagSigns : Text := "#/ @MATRIX:,".toList

/-- A character that is in nothing that a tag is composed of is not in the tag. -/
theorem not_mem_composeTag {language : Language} {sources : List String} {expected : String}
    {c : Char} (sign : c ∉ tagSigns) (free : c ∉ expected.toList)
    (sourcesFree : expected = "" → ∀ source ∈ sources, c ∉ source.toList) :
    c ∉ composeTag language sources expected := by
  have noSign : ∀ signs : String, signs.toList ⊆ tagSigns → c ∉ signs.toList :=
    fun signs within member => sign (within member)
  have mark : c ∉ language.commentMark.toList :=
    noSign _ (by cases language <;> decide)
  unfold composeTag
  split
  · rename_i empty
    have listed : c ∉ (", ".intercalate sources).toList := by
      rw [String.toList_intercalate]
      intro member
      rcases mem_intercalate member with comma | ⟨piece, among, within⟩
      · exact noSign ", " (by decide) comma
      · obtain ⟨source, given, rfl⟩ := List.mem_map.1 among
        exact sourcesFree empty source given within
    simp only [String.toList_append, List.mem_append, not_or]
    exact ⟨⟨⟨⟨mark, noSign " " (by decide)⟩, noSign tagMark (by decide)⟩,
      noSign " " (by decide)⟩, listed⟩
  · split
    · exact free
    · simp only [String.toList_append, List.mem_append, not_or]
      exact ⟨⟨mark, noSign " " (by decide)⟩, free⟩

/-! ## Inserting -/

/-- A tag goes above the first line that declares the name. -/
theorem insertAbove?_eq_some {name tag : Text} {lines result : List Text}
    (found : insertAbove? name tag lines = some result) :
    ∃ before line after, lines = before ++ line :: after ∧
      result = before ++ tagLine tag line :: line :: after ∧ declaresName name line = true ∧
      ∀ earlier ∈ before, declaresName name earlier = false := by
  induction lines generalizing result with
  | nil => cases found
  | cons line rest ih =>
      rw [insertAbove?] at found
      split at found
      · rename_i declares
        cases found
        exact ⟨[], line, rest, rfl, rfl, declares, nofun⟩
      · rename_i other
        obtain ⟨others, foundLater, rfl⟩ := Option.map_eq_some_iff.1 found
        obtain ⟨before, declaring, after, split, rfl, declares, first⟩ := ih foundLater
        exact ⟨line :: before, declaring, after, by rw [split, List.cons_append], rfl, declares,
          List.forall_mem_cons.2 ⟨Bool.eq_false_iff.2 other, first⟩⟩

theorem insertAbove?_eq_none {name tag : Text} {lines : List Text}
    (nowhere : insertAbove? name tag lines = none) :
    ∀ line ∈ lines, declaresName name line = false := by
  induction lines with
  | nil => exact nofun
  | cons line rest ih =>
      rw [insertAbove?] at nowhere
      split at nowhere
      · cases nowhere
      · rename_i other
        exact List.forall_mem_cons.2
          ⟨Bool.eq_false_iff.2 other, ih (Option.map_eq_none_iff.1 nowhere)⟩

/-- The carriage return that a line ends in, or nothing. -/
def lineReturn (line : Text) : Text := if line.getLast? = some '\r' then ['\r'] else []

theorem lineReturn_feed (line : Text) :
    lineReturn line ++ ['\n'] = ['\n'] ∨ lineReturn line ++ ['\n'] = ['\r', '\n'] := by
  unfold lineReturn
  split
  · exact Or.inr rfl
  · exact Or.inl rfl

theorem tagLine_eq (tag line : Text) : tagLine tag line = line.indentation ++ tag ++ lineReturn line := by
  simp only [tagLine, lineReturn, Text.endsWith_singleton]

/-- What is put on top of a text is a first line. -/
theorem insertOnTop_eq (tag content : Text) :
    ∃ first others, content.lines = first :: others ∧
      insertOnTop tag content = Text.unlines ((tag ++ lineReturn first) :: content.lines) := by
  obtain ⟨first, others, cut⟩ := List.exists_cons_of_ne_nil (Text.lines_ne_nil content)
  refine ⟨first, others, cut, ?_⟩
  have whole : Text.unlines ((tag ++ lineReturn first) :: content.lines) =
      tag ++ lineReturn first ++ ['\n'] ++ content := by
    have inserted := Text.unlines_insert [] (tag ++ lineReturn first) first others
    rw [← cut, Text.unlines_lines] at inserted
    exact inserted
  rw [whole, insertOnTop, cut, List.head?_cons, Option.map_some, Option.getD_some, lineReturn]
  simp only [Text.endsWith_singleton]
  split <;> simp only [List.append_assoc, List.append_nil, List.cons_append, List.nil_append]

/-- **Where a tag goes**: above the first line that declares the construct, with that line's blanks
and line end, or on top with the first line's end. -/
theorem insertTag_cases (content tag : Text) (construct : Option String) :
    (∃ name before line after, construct = some name ∧ name ≠ "" ∧
      content.lines = before ++ line :: after ∧ declaresName name.toList line = true ∧
      (∀ earlier ∈ before, declaresName name.toList earlier = false) ∧
      insertTag content tag construct =
        Text.unlines (before ++ (line.indentation ++ tag ++ lineReturn line) :: line :: after)) ∨
    (∀ name, construct = some name → name ≠ "" →
      ∀ line ∈ content.lines, declaresName name.toList line = false) ∧
    ∃ first others, content.lines = first :: others ∧
      insertTag content tag construct =
        Text.unlines ((tag ++ lineReturn first) :: content.lines) := by
  unfold insertTag
  split
  · rename_i lines found
    obtain ⟨name, named, found⟩ := Option.bind_eq_some_iff.1 found
    obtain ⟨given, nonempty⟩ := Option.filter_eq_some_iff.1 named
    obtain ⟨before, line, after, split, rfl, declares, first⟩ := insertAbove?_eq_some found
    rw [tagLine_eq]
    exact Or.inl ⟨name, before, line, after, given, bne_iff_ne.1 nonempty, split, declares, first, rfl⟩
  · rename_i nowhere
    refine Or.inr ⟨?_, insertOnTop_eq tag content⟩
    rintro name rfl nonempty
    rw [Option.filter_some, if_pos (bne_iff_ne.2 nonempty), Option.bind_some] at nowhere
    exact insertAbove?_eq_none nowhere

/-- A tag for a name that some line declares goes above the first such line. -/
theorem insertTag_of_declares {content : Text} {name : String} (nonempty : name ≠ "") {line : Text}
    (member : line ∈ content.lines) (declares : declaresName name.toList line = true) (tag : Text) :
    ∃ before first after, content.lines = before ++ first :: after ∧
      declaresName name.toList first = true ∧
      (∀ earlier ∈ before, declaresName name.toList earlier = false) ∧
      insertTag content tag (some name) =
        Text.unlines (before ++ (first.indentation ++ tag ++ lineReturn first) :: first :: after) := by
  rcases insertTag_cases content tag (some name) with
    ⟨other, before, first, after, same, -, placed⟩ | ⟨nowhere, -⟩
  · cases same
    exact ⟨before, first, after, placed⟩
  · rw [nowhere name rfl nonempty line member] at declares
    exact absurd declares Bool.false_ne_true

/-- Where a tag goes among the lines of a text, and the blanks in front of it: on top without any, or
right above a line that declares a name, with the blanks of that line. -/
def IsTagPlace (before : List Text) (indent : Text) (after : List Text) : Prop :=
  before = [] ∧ indent = [] ∨
    ∃ (name line : Text) (rest : List Text), after = line :: rest ∧
      declaresName name line = true ∧ indent = line.indentation

theorem mem_line_of_mem_lineReturn {line : Text} {c : Char} (member : c ∈ lineReturn line) :
    c ∈ line := by
  rw [lineReturn] at member
  split at member
  · rename_i returns
    rw [List.mem_singleton.1 member]
    exact List.mem_of_getLast? returns
  · exact absurd member List.not_mem_nil

/-- **A text with a tag is the lines of the text with one more piece**, the tag between characters
that lines of the text have. -/
theorem insertTag_spec (content tag : Text) (construct : Option String) :
    ∃ (before after : List Text) (indent finish : Text), content.lines = before ++ after ∧
      insertTag content tag construct =
        Text.unlines (before ++ (indent ++ tag ++ finish) :: after) ∧
      (∀ c ∈ indent ++ finish, ∃ line ∈ content.lines, c ∈ line) ∧
      IsTagPlace before indent after := by
  rcases insertTag_cases content tag construct with
    ⟨name, before, line, after, -, -, split, declares, -, tagged⟩ | ⟨-, first, others, split, tagged⟩
  · refine ⟨before, line :: after, line.indentation, lineReturn line, split, tagged,
      fun c member => ⟨line, ?_, ?_⟩, Or.inr ⟨name.toList, line, after, rfl, declares, rfl⟩⟩
    · rw [split]
      exact List.mem_append_right _ List.mem_cons_self
    · rcases List.mem_append.1 member with blank | finish
      · exact (List.takeWhile_prefix _).subset blank
      · exact mem_line_of_mem_lineReturn finish
  · refine ⟨[], content.lines, [], lineReturn first, rfl, tagged,
      fun c member => ⟨first, ?_, mem_line_of_mem_lineReturn member⟩, Or.inl ⟨rfl, rfl⟩⟩
    rw [split]
    exact List.mem_cons_self

/-- The tag stands in the text that it was put into. -/
theorem infix_insertTag (content tag : Text) (construct : Option String) :
    tag <:+: insertTag content tag construct := by
  obtain ⟨before, after, indent, finish, -, result, -⟩ := insertTag_spec content tag construct
  rw [result]
  have inLine : tag <:+: indent ++ tag ++ finish := ⟨indent, finish, rfl⟩
  exact inLine.trans (Text.infix_joinWith_of_mem '\n' (List.mem_append_right _ List.mem_cons_self))

theorem mem_insertTag {content tag : Text} {construct : Option String} {c : Char}
    (member : c ∈ insertTag content tag construct) : c = '\n' ∨ c ∈ tag ∨ c ∈ content := by
  obtain ⟨before, after, indent, finish, split, result, ends, -⟩ :=
    insertTag_spec content tag construct
  have inContent : ∀ line ∈ content.lines, c ∈ line → c ∈ content :=
    fun line among inLine => Text.mem_of_mem_split among inLine
  rw [result] at member
  rcases Text.mem_joinWith member with feed | ⟨piece, among, inPiece⟩
  · exact Or.inl feed
  · rw [List.mem_append, List.mem_cons, or_left_comm, ← List.mem_append, ← split] at among
    rcases among with rfl | old
    · rw [List.append_assoc, List.mem_append, List.mem_append, or_left_comm, ← List.mem_append] at inPiece
      rcases inPiece with inTag | inEnds
      · exact Or.inr (Or.inl inTag)
      · obtain ⟨line, among, inLine⟩ := ends c inEnds
        exact Or.inr (Or.inr (inContent line among inLine))
    · exact Or.inr (Or.inr (inContent piece old inPiece))

/-- **A tag without line feeds makes one new line**, and leaves the others as they are. -/
theorem lines_insertTag {tag : Text} (free : '\n' ∉ tag) (content : Text)
    (construct : Option String) :
    ∃ (before after : List Text) (indent finish : Text), content.lines = before ++ after ∧
      (insertTag content tag construct).lines =
        before ++ (indent ++ tag ++ finish) :: after ∧
      IsTagPlace before indent after := by
  obtain ⟨before, after, indent, finish, split, result, ends, place⟩ :=
    insertTag_spec content tag construct
  have endsFree : '\n' ∉ indent ++ finish := by
    intro member
    obtain ⟨line, among, inLine⟩ := ends '\n' member
    exact Text.not_mem_of_mem_lines among inLine
  refine ⟨before, after, indent, finish, split, ?_, place⟩
  rw [result]
  refine Text.lines_unlines_insert split ?_
  simp only [List.mem_append, not_or] at endsFree ⊢
  exact ⟨⟨endsFree.1, free⟩, endsFree.2⟩

end Traceability
