/-
# Traceability.Proofs.Source.BareCode -- a line without its comments and literals

A line of a language with braces is made of segments: runs of code, literals and
closed block comments (`Segment`).  In front of them may stand the rest of a block
comment that was opened further up, and behind them a line comment or a block
comment that is left open (`CodeLine`).  Only what stands in a segment decides what
it is: a mark in a literal opens no comment, and a quote in a comment opens no
literal.

Each kind of segment is scanned by an equation of its own, which holds whatever
stands behind it.  Along the segments of a line they add up to
`bareCode_codeLine`: of the line, its runs of code are left.
-/
import Traceability.Proofs.Source.BlockComment
import Traceability.Proofs.Source.Braces

namespace Traceability

set_option autoImplicit false

/-! ## Lines as segments -/

/-- A character that opens neither a comment nor a literal in any family. -/
def opensNothing (c : Char) : Bool := !(List.contains ['/', '"', '\'', '\x60'] c)

/-- What stands in a literal: a character, or a backslash with the character behind it. -/
inductive LiteralPart (quote : Char) where
  | plain (c : Char) (noQuote : c ≠ quote) (noBackslash : c ≠ '\\')
  | escaped (c : Char)

def LiteralPart.text {quote : Char} : LiteralPart quote → Text
  | .plain c _ _ => [c]
  | .escaped c => ['\\', c]

/-- What stands in a block comment: its closing mark does not. -/
structure CommentBody where
  text : Text
  unclosed : ¬blockClosing <:+: text

/-- A piece of a line of code. -/
inductive Segment (quotes : Text) where
  | run (text : Text) (inert : ∀ c ∈ text, opensNothing c = true)
  | literal (quote : Char) (opens : quote ∈ quotes) (body : List (LiteralPart quote))
  | comment (body : CommentBody)

namespace Segment

variable {quotes : Text}

def text : Segment quotes → Text
  | .run text _ => text
  | .literal quote _ body => quote :: (body.flatMap LiteralPart.text ++ [quote])
  | .comment body => blockOpening ++ body.text ++ blockClosing

/-- The code in a segment: all of a run, and nothing of a literal or a comment. -/
def code : Segment quotes → Text
  | .run text _ => text
  | _ => []

end Segment

/-- How a line ends behind its segments. -/
inductive LineEnding where
  | plain
  | lineComment (words : Text)
  | openComment (body : CommentBody)

def LineEnding.text : LineEnding → Text
  | .plain => []
  | .lineComment words => '/' :: '/' :: words
  | .openComment body => blockOpening ++ body.text

/-- Does the line leave a block comment open? -/
def LineEnding.isOpen : LineEnding → Bool
  | .openComment _ => true
  | _ => false

/-- A line of code. -/
inductive CodeLine (quotes : Text) where
  /-- Segments, in front of which a block comment from further up may come to its end. -/
  | segmented (begun : Option CommentBody) (segments : List (Segment quotes)) (ending : LineEnding)
  /-- A line within a block comment from further up. -/
  | commented (body : CommentBody)

namespace CodeLine

variable {quotes : Text}

/-- Is a block comment open in front of the line? -/
def startsInComment : CodeLine quotes → Bool
  | .segmented begun _ _ => begun.isSome
  | .commented _ => true

/-- Is a block comment open behind the line? -/
def endsInComment : CodeLine quotes → Bool
  | .segmented _ _ ending => ending.isOpen
  | .commented _ => true

def text : CodeLine quotes → Text
  | .segmented begun segments ending =>
      ((begun.map (·.text ++ blockClosing)).getD []) ++ segments.flatMap Segment.text ++ ending.text
  | .commented body => body.text

def code : CodeLine quotes → Text
  | .segmented _ segments _ => segments.flatMap Segment.code
  | .commented _ => []

end CodeLine

/-! ## Scanning segments -/

section Scan

variable {quotes : Text}

/-- Nothing in a comment closes it in front of its closing mark. -/
theorem bareCode_comment (body : CommentBody) (rest : Text) :
    bareCode quotes .blockComment (body.text ++ blockClosing ++ rest) =
      bareCode quotes .code rest := by
  obtain ⟨text, unclosed⟩ := body
  simp only
  induction text with
  | nil => rfl
  | cons c text ih =>
      rw [List.infix_cons_iff, not_or] at unclosed
      have noClosing : ∀ behind, c = '*' →
          text ++ blockClosing ++ rest = '/' :: behind → False := by
        intro behind star slash
        cases text with
        | nil => cases slash
        | cons d text =>
            obtain ⟨rfl, -⟩ := List.cons.inj slash
            exact unclosed.1 ⟨text, by rw [star]; rfl⟩
      rw [List.cons_append, List.cons_append, bareCode]
      · exact ih unclosed.2
      · exact noClosing

theorem bareCode_openComment (body : CommentBody) :
    bareCode quotes .blockComment body.text = ([], true) := by
  obtain ⟨text, unclosed⟩ := body
  simp only
  induction text with
  | nil => rfl
  | cons c text ih =>
      rw [List.infix_cons_iff, not_or] at unclosed
      rw [bareCode]
      · exact ih unclosed.2
      · rintro behind rfl rfl
        exact unclosed.1 ⟨behind, rfl⟩

/-- A literal ends at its closing quote. -/
theorem bareCode_literal {quote : Char} (noBackslash : quote ≠ '\\')
    (body : List (LiteralPart quote)) (rest : Text) :
    bareCode quotes (.literal quote) (body.flatMap LiteralPart.text ++ quote :: rest) =
      bareCode quotes .code rest := by
  induction body with
  | nil => cases rest <;> simp [bareCode]
  | cons part body ih =>
      -- Behind a part of the literal stands at least its closing quote.
      obtain ⟨d, behind, next⟩ := List.exists_cons_of_ne_nil
        (show body.flatMap LiteralPart.text ++ quote :: rest ≠ [] by simp)
      rw [next] at ih
      rw [List.flatMap_cons, List.append_assoc, next]
      cases part with
      | plain c noQuote ordinary =>
          simpa only [LiteralPart.text, List.singleton_append, bareCode, noQuote, ordinary, if_false]
            using ih
      | escaped c =>
          simpa only [LiteralPart.text, List.cons_append, List.nil_append, bareCode,
            Ne.symm noBackslash, if_false, if_true] using ih

/-- A run of code stays. -/
theorem bareCode_run {text : Text} (inert : ∀ c ∈ text, opensNothing c = true)
    (noQuote : ∀ c ∈ text, c ∉ quotes) (rest : Text) :
    bareCode quotes .code (text ++ rest) =
      (text ++ (bareCode quotes .code rest).1, (bareCode quotes .code rest).2) := by
  induction text with
  | nil => rfl
  | cons c text ih =>
      obtain ⟨here, later⟩ := List.forall_mem_cons.1 inert
      obtain ⟨notHere, notLater⟩ := List.forall_mem_cons.1 noQuote
      have noSlash : c ≠ '/' := by
        rintro rfl
        exact absurd here (by decide)
      have noApostrophe : c ≠ '\'' := by
        rintro rfl
        exact absurd here (by decide)
      have noLiteral : ¬quotes.contains c = true := by
        rwa [List.contains_iff_mem]
      rw [List.cons_append, bareCode, if_neg noLiteral, if_neg noApostrophe]
      · show (c :: (bareCode quotes .code (text ++ rest)).1, _) = _
        rw [ih later notLater]
        rfl
      · exact fun _ slash => absurd slash noSlash
      · exact fun _ slash => absurd slash noSlash

theorem bareCode_quote {quote : Char} (opens : quote ∈ quotes) (noSlash : quote ≠ '/') (rest : Text) :
    bareCode quotes .code (quote :: rest) = bareCode quotes (.literal quote) rest := by
  rw [bareCode, if_pos (List.contains_iff_mem.2 opens)]
  · exact fun _ slash => absurd slash noSlash
  · exact fun _ slash => absurd slash noSlash

end Scan

/-! ## Lines of a family -/

variable {family : Family}

/-- A quote opens a literal, and is neither half of the mark of a comment nor an escape. -/
theorem Family.opens_of_mem_quotes {quote : Char} (opens : quote ∈ family.quotes) :
    opensNothing quote = false ∧ quote ≠ '/' ∧ quote ≠ '\\' := by
  have known : quote = '"' ∨ quote = '\'' ∨ quote = '\x60' := by
    cases family <;> simp only [Family.quotes, List.mem_cons, List.not_mem_nil, or_false] at opens <;>
      grind
  rcases known with rfl | rfl | rfl <;> decide

/-- A segment leaves its code, whatever stands behind it. -/
theorem bareCode_segment (segment : Segment family.quotes) (rest : Text) :
    bareCode family.quotes .code (segment.text ++ rest) =
      (segment.code ++ (bareCode family.quotes .code rest).1,
        (bareCode family.quotes .code rest).2) := by
  cases segment with
  | run text inert =>
      apply bareCode_run inert
      intro c member opens
      have closed := (Family.opens_of_mem_quotes opens).1
      rw [inert c member] at closed
      exact nomatch closed
  | literal quote opens body =>
      obtain ⟨-, noSlash, noBackslash⟩ := Family.opens_of_mem_quotes opens
      show bareCode _ .code (quote :: (body.flatMap LiteralPart.text ++ [quote]) ++ rest) = _
      rw [List.cons_append, List.append_assoc, List.singleton_append, bareCode_quote opens noSlash,
        bareCode_literal noBackslash]
      rfl
  | comment body =>
      show bareCode _ .code (blockOpening ++ body.text ++ blockClosing ++ rest) = _
      rw [List.append_assoc, List.append_assoc, ← List.append_assoc body.text]
      show bareCode _ .blockComment (body.text ++ blockClosing ++ rest) = _
      rw [bareCode_comment]
      rfl

theorem bareCode_ending (ending : LineEnding) :
    bareCode family.quotes .code ending.text = ([], ending.isOpen) := by
  cases ending with
  | plain => rfl
  | lineComment words => rfl
  | openComment body => exact bareCode_openComment body

theorem bareCode_segments (segments : List (Segment family.quotes)) (ending : LineEnding) :
    bareCode family.quotes .code (segments.flatMap Segment.text ++ ending.text) =
      (segments.flatMap Segment.code, ending.isOpen) := by
  induction segments with
  | nil => exact bareCode_ending ending
  | cons segment segments ih =>
      rw [List.flatMap_cons, List.append_assoc, bareCode_segment, ih, List.flatMap_cons]

/-- **Of a line, its runs of code are left, and a block comment is open behind it exactly if the line
leaves one open.**  Whatever a line looks like, only characters of the line are left, in their
order. -/
theorem bareCode_codeLine (family : Family) :
    (∀ line : CodeLine family.quotes,
      bareCode family.quotes (if line.startsInComment then .blockComment else .code) line.text =
        (line.code, line.endsInComment)) ∧
    ∀ (region : CodeRegion) (text : Text),
      (bareCode family.quotes region text).1.Sublist text := by
  constructor
  · intro line
    cases line with
    | commented body => exact bareCode_openComment body
    | segmented begun segments ending =>
        cases begun with
        | none => exact bareCode_segments segments ending
        | some body =>
            show bareCode _ .blockComment
              (body.text ++ blockClosing ++ segments.flatMap Segment.text ++ ending.text) = _
            rw [List.append_assoc, bareCode_comment]
            exact bareCode_segments segments ending
  · exact bareCode_sublist family.quotes

/-- The end of a block comment, and then marks of comments in a literal, an escaped quote, a quote in a
comment, and a line comment. -/
def mixedLine : CodeLine Family.js.quotes :=
  let slash : LiteralPart '\'' := .plain '/' (by decide) (by decide)
  .segmented (some ⟨" it's".toList, by decide⟩)
    [.run "f(".toList (List.all_eq_true.1 (by decide)),
      .literal '\'' (by decide) [slash, slash, .escaped '\''],
      .run ", a ".toList (List.all_eq_true.1 (by decide)), .comment ⟨" \" ".toList, by decide⟩,
      .run " + b) ".toList (List.all_eq_true.1 (by decide))]
    (.lineComment " 'c".toList)

/-- Of that line, `f(, a  + b) ` is left. -/
theorem bareCode_mixedLine :
    mixedLine.text = " it's*/f('//\\'', a /* \" */ + b) // 'c".toList ∧
      bareCode Family.js.quotes .blockComment mixedLine.text = ("f(, a  + b) ".toList, false) :=
  ⟨by decide, ((bareCode_codeLine .js).1 mixedLine).trans (by decide)⟩

end Traceability
