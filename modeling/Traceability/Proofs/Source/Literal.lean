/-
# Traceability.Proofs.Source.Literal -- how much of a literal counts

Comments are told by their marks alone, so a mark within a literal starts a comment
unless a quote or, for slashes, a colon stands right in front of it.  What counts of a
literal is `literalLeft`: its text, and behind it the closing quote if no line comment
starts in the text.

Two texts in the place of a literal give the same logic exactly if the same is left of
both (`normalizeLogic_literal_ne_iff`), as long as no block comment reaches over a quote.
If there are no marks in them, all of both is left, and every difference beyond the
length of runs of blanks counts.
-/
import Traceability.Proofs.Source.BlockComment
import Traceability.Proofs.Source.Layout

namespace Traceability

set_option autoImplicit false

/-! ## Marks -/

/-- The marks of the comments of a style. -/
def CommentStyle.marks (style : CommentStyle) : List Text :=
  style.mark :: if style.hasBlocks then [blockOpening, blockClosing] else []

/-- No mark of a comment stands in the text. -/
def Unmarked (style : CommentStyle) (text : Text) : Prop := ∀ mark ∈ style.marks, ¬mark <:+: text

instance (style : CommentStyle) (text : Text) : Decidable (Unmarked style text) :=
  decidable_of_decidable_of_iff
    (show (∀ mark ∈ style.marks, ¬Text.occursIn mark text = true) ↔ Unmarked style text by
      simp only [Unmarked, Text.occursIn_iff])

/-- A character that opens and closes a literal. -/
def IsQuote (c : Char) : Prop := c = '"' ∨ c = '\''

instance (c : Char) : Decidable (IsQuote c) := inferInstanceAs (Decidable (_ ∨ _))

section

variable {style : CommentStyle} {text : Text} {quote : Char}

theorem Unmarked.line (unmarked : Unmarked style text) : ¬style.mark <:+: text :=
  unmarked _ List.mem_cons_self

theorem Unmarked.opening (unmarked : Unmarked style text) (blocks : style.hasBlocks = true) :
    ¬blockOpening <:+: text :=
  unmarked _ (by simp [CommentStyle.marks, blocks])

theorem Unmarked.closing (unmarked : Unmarked style text) (blocks : style.hasBlocks = true) :
    ¬blockClosing <:+: text :=
  unmarked _ (by simp [CommentStyle.marks, blocks])

theorem Unmarked.withoutBlocks_eq (unmarked : Unmarked style text) :
    withoutBlocks style text = text := by
  rw [withoutBlocks]
  split
  · rename_i blocks
    exact dropBlockComments_of_not_hasBlock fun block => unmarked.opening blocks block.opened
  · rfl

theorem IsQuote.not_blank (isQuote : IsQuote quote) : Text.isBlank quote = false := by
  rcases isQuote with rfl | rfl <;> decide

theorem IsQuote.not_mem_mark (isQuote : IsQuote quote) : quote ∉ style.mark := by
  rcases isQuote with rfl | rfl <;> cases style <;> decide

theorem IsQuote.not_mem_blockOpening (isQuote : IsQuote quote) : quote ∉ blockOpening := by
  rcases isQuote with rfl | rfl <;> decide

theorem IsQuote.ne_newline (isQuote : IsQuote quote) : '\n' ≠ quote := by
  rcases isQuote with rfl | rfl <;> decide

end

/-! ## A literal in its line -/

/-- What counts of a literal's text and the closing quote behind it. -/
def literalLeft (style : CommentStyle) (quote : Char) (text : Text) : Text :=
  (collapseBlanks false
    (dropLineComment style (some quote) (withoutBlocks style text ++ [quote]))).trimRight

section

variable {style : CommentStyle} {quote : Char} {text : Text}

theorem not_mem_withoutBlocks {c : Char} (free : c ∉ text) : c ∉ withoutBlocks style text := by
  rw [withoutBlocks]
  split
  · exact fun member => free ((dropBlockComments_sublist none text).subset member)
  · exact free

/-- Behind a quote a line counts up to the closing quote and, if that is reached, beyond it. -/
theorem trimRight_dropLineComment_literal (isQuote : IsQuote quote) (plain : quote ∉ text)
    (after : Text) :
    (collapseBlanks false (dropLineComment style (some quote)
        (withoutBlocks style text ++ quote :: after))).trimRight =
      literalLeft style quote text ++
        if quote ∈ literalLeft style quote text then
          (collapseBlanks false (dropLineComment style (some quote) after)).trimRight
        else [] := by
  rw [literalLeft, dropLineComment_append isQuote.not_mem_mark,
    dropLineComment_append isQuote.not_mem_mark]
  split
  · -- No comment starts in the text, so the closing quote is there.
    rw [collapseBlanks_append_cons isQuote.not_blank, collapseBlanks_append_cons isQuote.not_blank,
      Text.trimRight, Text.trimRight, Text.dropEndWhile_append_cons isQuote.not_blank,
      Text.dropEndWhile_append_cons isQuote.not_blank, if_pos (by simp)]
    simp [dropLineComment, collapseBlanks, Text.trimRight, Text.dropEndWhile]
  · rw [if_neg, List.append_nil]
    intro member
    rcases mem_collapseBlanks ((Text.trimRight_prefix _).subset member) with rfl | among
    · exact absurd isQuote (by decide)
    · exact not_mem_withoutBlocks plain (mem_of_mem_dropLineComment among)

/-- All of a text without marks is left. -/
theorem Unmarked.literalLeft_eq (unmarked : Unmarked style text) (isQuote : IsQuote quote) :
    literalLeft style quote text = collapseBlanks false text ++ [quote] := by
  rw [literalLeft, unmarked.withoutBlocks_eq, dropLineComment_append isQuote.not_mem_mark,
    if_pos (dropLineComment_of_unmarked unmarked.line), collapseBlanks_append_cons isQuote.not_blank,
    Text.trimRight, Text.dropEndWhile_append_cons isQuote.not_blank]
  rfl

end

/-! ## A literal in its text -/

/-- A text with a literal. -/
def withLiteral (front : Text) (quote : Char) (text back : Text) : Text :=
  front ++ quote :: (text ++ quote :: back)

/-- No block comment reaches over a quote of the literal: what is open in front of it is closed neither
in it nor behind it, and what is opened in it is not closed behind it. -/
def QuotesApart (style : CommentStyle) (front : Text) (quote : Char) (text back : Text) : Prop :=
  style.hasBlocks = true →
    SeamFree front (quote :: (text ++ quote :: back)) ∧ SeamFree text (quote :: back)

instance (style : CommentStyle) (front : Text) (quote : Char) (text back : Text) :
    Decidable (QuotesApart style front quote text back) :=
  inferInstanceAs (Decidable (_ → _))

section

variable {style : CommentStyle} {quote : Char} {front line text back : Text}

theorem withoutBlocks_withLiteral (isQuote : IsQuote quote)
    (apart : QuotesApart style front quote text back) :
    withoutBlocks style (withLiteral front quote text back) =
      withoutBlocks style front ++
        quote :: (withoutBlocks style text ++ quote :: withoutBlocks style back) := by
  simp only [withoutBlocks, withLiteral]
  split
  · rename_i blocks
    obtain ⟨enters, leaves⟩ := apart blocks
    have other := isQuote.not_mem_blockOpening
    rw [dropBlockComments_append enters (not_mem_of_head?_cons other _),
      dropBlockComments_cons_of_not_mem other,
      dropBlockComments_append leaves (not_mem_of_head?_cons other _),
      dropBlockComments_cons_of_not_mem other]
  · rfl

/-- A last line without marks stays the last line. -/
theorem exists_lines_withoutBlocks (last : front.lines.getLast? = some line)
    (unmarked : Unmarked style line) :
    ∃ above, (withoutBlocks style front).lines = above ++ [line] := by
  obtain ⟨above, lines⟩ := List.getLast?_eq_some_iff.1 last
  have free : '\n' ∉ line := Text.not_mem_of_mem_lines (lines ▸ List.mem_append_right _ (by simp))
  have whole : front = Text.endLines above ++ line := by
    rw [Text.eq_of_lines_eq lines]
    simp [Text.beginLines]
  rw [withoutBlocks]
  split
  · rename_i blocks
    rcases Text.endLines_eq_nil_or_suffix above with none_ | ⟨upper, feeds⟩
    · rw [whole, none_, List.nil_append, dropBlockComments_of_not_hasBlock
        fun block => unmarked.opening blocks block.opened]
      exact ⟨[], Text.split_of_not_mem free⟩
    · rw [← feeds, List.append_assoc, List.singleton_append] at whole
      have unopened : ¬blockOpening <:+: '\n' :: line :=
        mt (Text.infix_cons_of_not_mem (by decide) (by decide)).1 (unmarked.opening blocks)
      have unclosed : ¬blockClosing <:+: '\n' :: line :=
        mt (Text.infix_cons_of_not_mem (by decide) (by decide)).1 (unmarked.closing blocks)
      rw [whole,
        dropBlockComments_append (fun _ => unclosed) (not_mem_of_head?_cons (by decide) line),
        dropBlockComments_of_not_hasBlock fun block => unopened block.opened,
        Text.lines_append_newline]
      exact ⟨_, congrArg (_ ++ ·) (Text.split_of_not_mem free)⟩
  · exact ⟨above, lines⟩

/-- What becomes of the line that holds the literal. -/
theorem logicOf_literal (isQuote : IsQuote quote) (unmarked : ¬style.mark <:+: line)
    (plain : quote ∉ text) (after : Text) :
    logicOf style (line ++ quote :: (withoutBlocks style text ++ quote :: after)) =
      (collapseBlanks false line).trimLeft ++ quote :: (literalLeft style quote text ++
        if quote ∈ literalLeft style quote text then
          (collapseBlanks false (dropLineComment style (some quote) after)).trimRight
        else []) := by
  rw [logicOf, dropLineComment_append isQuote.not_mem_mark,
    if_pos (dropLineComment_of_unmarked unmarked), normalizeLine_append_cons isQuote.not_blank,
    trimRight_dropLineComment_literal isQuote plain]

/-- Of the logic of a text with a literal, one line depends on what the literal holds, and of it only
what is left of the literal. -/
theorem exists_lines_withLiteral (isQuote : IsQuote quote)
    (last : front.lines.getLast? = some line) (unmarked : Unmarked style line) (back : Text) :
    ∃ (above below : List Text) (start finish : Text), ∀ text, quote ∉ text → '\n' ∉ text →
      QuotesApart style front quote text back →
      (normalizeLogic style (withLiteral front quote text back)).lines =
        above ++ (start ++ quote :: (literalLeft style quote text ++
          if quote ∈ literalLeft style quote text then finish else [])) :: below := by
  obtain ⟨above, linesFront⟩ := exists_lines_withoutBlocks last unmarked
  obtain ⟨first, below, linesBack⟩ :=
    List.exists_cons_of_ne_nil (Text.lines_ne_nil (withoutBlocks style back))
  refine ⟨(above.map (logicOf style)).filter (!·.isEmpty),
    (below.map (logicOf style)).filter (!·.isEmpty), (collapseBlanks false line).trimLeft,
    (collapseBlanks false (dropLineComment style (some quote) first)).trimRight, ?_⟩
  intro text plain free apart
  let literal := quote :: (withoutBlocks style text ++ [quote])
  have linesLiteral : Text.lines literal = [] ++ [literal] := by
    refine Text.split_of_not_mem ?_
    simp [literal, isQuote.ne_newline, not_mem_withoutBlocks free]
  have lines : (withoutBlocks style (withLiteral front quote text back)).lines =
      above ++ (line ++ quote :: (withoutBlocks style text ++ quote :: first)) :: below := by
    have parts : withoutBlocks style (withLiteral front quote text back) =
        withoutBlocks style front ++ (literal ++ withoutBlocks style back) := by
      rw [withoutBlocks_withLiteral isQuote apart]
      simp [literal]
    rw [parts, Text.lines_append linesFront (Text.lines_append linesLiteral linesBack)]
    simp [literal]
  have logic := logicOf_literal isQuote unmarked.line plain first
  have nonempty : ((withoutBlocks style (withLiteral front quote text back)).lines.map
      (logicOf style)).filter (!·.isEmpty) ≠ [] := by
    rw [lines, List.map_append, List.map_cons, logic]
    simp
  rw [lines_normalizeLogic nonempty, lines, List.map_append, List.map_cons, logic,
    List.filter_append, List.filter_cons_of_pos (by simp)]

theorem eq_of_append_ite {left₁ left₂ finish : Text}
    (same : left₁ ++ (if quote ∈ left₁ then finish else []) =
      left₂ ++ (if quote ∈ left₂ then finish else [])) : left₁ = left₂ := by
  by_cases closed₁ : quote ∈ left₁
  · by_cases closed₂ : quote ∈ left₂
    · rw [if_pos closed₁, if_pos closed₂] at same
      exact List.append_cancel_right same
    · rw [if_pos closed₁, if_neg closed₂, List.append_nil] at same
      exact absurd (same ▸ List.mem_append_left _ closed₁) closed₂
  · by_cases closed₂ : quote ∈ left₂
    · rw [if_neg closed₁, if_pos closed₂, List.append_nil] at same
      exact absurd (same ▸ List.mem_append_left _ closed₂) closed₁
    · rwa [if_neg closed₁, if_neg closed₂, List.append_nil, List.append_nil] at same

/-- **Which literals are told apart.**  Exactly those of which not the same is left, as long as no block
comment reaches over a quote.  If there is no mark in either, these are the ones that differ beyond
the length of runs of blanks. -/
theorem normalizeLogic_literal_ne_iff {text₁ text₂ : Text} (isQuote : IsQuote quote)
    (last : front.lines.getLast? = some line) (unmarked : Unmarked style line)
    (plain₁ : quote ∉ text₁ ∧ '\n' ∉ text₁) (plain₂ : quote ∉ text₂ ∧ '\n' ∉ text₂)
    (apart₁ : QuotesApart style front quote text₁ back)
    (apart₂ : QuotesApart style front quote text₂ back) :
    (normalizeLogic style (withLiteral front quote text₁ back) ≠
        normalizeLogic style (withLiteral front quote text₂ back) ↔
      literalLeft style quote text₁ ≠ literalLeft style quote text₂) ∧
    (collapseBlanks false text₁ ≠ collapseBlanks false text₂ →
      Unmarked style text₁ → Unmarked style text₂ →
      normalizeLogic style (withLiteral front quote text₁ back) ≠
        normalizeLogic style (withLiteral front quote text₂ back)) := by
  obtain ⟨above, below, start, finish, lines⟩ :=
    exists_lines_withLiteral isQuote last unmarked back
  have lines₁ := lines text₁ plain₁.1 plain₁.2 apart₁
  have lines₂ := lines text₂ plain₂.1 plain₂.2 apart₂
  have told : normalizeLogic style (withLiteral front quote text₁ back) =
      normalizeLogic style (withLiteral front quote text₂ back) ↔
        literalLeft style quote text₁ = literalLeft style quote text₂ := by
    constructor
    · intro same
      rw [same, lines₂] at lines₁
      have line := (List.cons.inj (List.append_cancel_left lines₁)).1
      exact eq_of_append_ite (List.cons.inj (List.append_cancel_left line)).2.symm
    · intro same
      rw [same, ← lines₂] at lines₁
      rw [← Text.unlines_lines (normalizeLogic style _), lines₁, Text.unlines_lines]
  refine ⟨not_congr told, fun differ unmarked₁ unmarked₂ same => differ ?_⟩
  have left := told.1 same
  rw [unmarked₁.literalLeft_eq isQuote, unmarked₂.literalLeft_eq isQuote] at left
  exact List.append_cancel_right left

end

/-- Behind a colon two slashes start no comment, so two addresses are told apart. -/
theorem normalizeLogic_literal_ne_address :
    let front : Text := "/* hosts */\nurl = ".toList
    let back : Text := "; // main\n".toList
    QuotesApart .slash front '"' "http://a".toList back ∧
      normalizeLogic .slash (withLiteral front '"' "http://a".toList back) ≠
        normalizeLogic .slash (withLiteral front '"' "http://b".toList back) := by
  intro front back
  have apart : ∀ host ∈ ["http://a".toList, "http://b".toList],
      QuotesApart .slash front '"' host back := by decide +kernel
  have plain : ∀ host ∈ ["http://a".toList, "http://b".toList], '"' ∉ host ∧ '\n' ∉ host := by decide
  simp only [List.forall_mem_cons] at apart plain
  have last : front.lines.getLast? = some "url = ".toList := by decide
  have unmarked : Unmarked .slash "url = ".toList := by decide +kernel
  have told := normalizeLogic_literal_ne_iff (Or.inl rfl) last unmarked plain.1 plain.2.1 apart.1
    apart.2.1
  exact ⟨apart.1, told.1.2 (by decide +kernel)⟩

/-- A number sign within a literal hides the rest of it. -/
theorem literals_confused :
    ¬∀ (style : CommentStyle) (quote : Char) (front line text₁ text₂ back : Text),
      style = .hash ∨ style = .slash → IsQuote quote →
      front.lines.getLast? = some line → Unmarked style line → (∀ c ∈ line, ¬IsQuote c) →
      (∀ c ∈ text₁, ¬IsQuote c ∧ c ≠ '\\' ∧ c ≠ '\n') →
      (∀ c ∈ text₂, ¬IsQuote c ∧ c ≠ '\\' ∧ c ≠ '\n') →
      collapseBlanks false text₁ ≠ collapseBlanks false text₂ →
      normalizeLogic style (withLiteral front quote text₁ back) ≠
        normalizeLogic style (withLiteral front quote text₂ back) := by
  intro told
  refine told .hash '"' "x = ".toList "x = ".toList "a #1".toList "a #2".toList "\n".toList
    (Or.inl rfl) (by decide) (by decide) (by decide) (by simp [IsQuote]) (by simp [IsQuote])
    (by simp [IsQuote]) (by decide +kernel) ?_
  decide +kernel

end Traceability
