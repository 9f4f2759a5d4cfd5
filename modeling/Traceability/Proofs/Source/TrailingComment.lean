/-
# Traceability.Proofs.Source.TrailingComment -- line comments behind a line of code

Two slashes behind a blank start a line comment, whatever the line in front of them.
But block comments are taken out before line comments, and over all lines: the text
of a line comment can open one that is closed in a line below, or close one that seems
to be opened further up, and then the code between the marks is lost with it
(`lineComment_swallows_code`).

So a line comment counts for nothing if no block comment of the whole text reaches into
it; and its text may be put behind every line of every content exactly if it holds no
mark of a block comment (`normalizeLogic_lineComment_iff`).
-/
import Traceability.Proofs.Source.BlockComment
import Traceability.Proofs.Source.Layout

namespace Traceability

set_option autoImplicit false

/-! ## Block comments and lines -/

/-- No mark of a block comment begins with a line feed. -/
theorem head_beginLines (texts : List Text) :
    ∀ d ∈ (Text.beginLines texts).head?, d ∉ blockOpening := by
  cases texts with
  | nil => exact fun d member => nomatch member
  | cons line rest => exact not_mem_of_head?_cons (by decide) _

/-- Lines that begin with a line feed keep the first of them. -/
theorem lines_dropBlockComments_beginLines (texts : List Text) :
    ∃ after, (dropBlockComments none (Text.beginLines texts)).lines = [] :: after := by
  cases texts with
  | nil => exact ⟨[], rfl⟩
  | cons line rest => exact ⟨_, Text.split_cons_separator '\n' _⟩

/-! ## A comment behind a line -/

/-- A line comment with these words. -/
def lineComment (words : Text) : Text := ['/', '/'] ++ words

/-- The text with a comment behind one of its lines, a space in front of it. -/
def commentBehind (words : Text) (before : List Text) (line : Text) (after : List Text) : Text :=
  Text.unlines (before ++ (line ++ ' ' :: lineComment words) :: after)

/-- Between these texts the comment stays one up to the end of its line. -/
structure StaysComment (front words back : Text) : Prop where
  /-- It closes no block comment that is open in front of it. -/
  enters : blockOpen false front = true → ¬blockClosing <:+: lineComment words
  /-- Otherwise, no block comment that it opens is closed behind it. -/
  leaves : blockOpen false front = false → SeamFree (lineComment words) back
  /-- And none takes its second slash. -/
  slashes : blockOpen false front = false →
    ['/', '/'] <+: dropBlockComments none (lineComment words)

instance (front words back : Text) : Decidable (StaysComment front words back) :=
  decidable_of_decidable_of_iff
    (show (blockOpen false front = true → ¬Text.occursIn blockClosing (lineComment words) = true) ∧
        (blockOpen false front = false → SeamFree (lineComment words) back) ∧
        (blockOpen false front = false →
          ['/', '/'] <+: dropBlockComments none (lineComment words)) ↔
          StaysComment front words back by
      rw [Text.occursIn_iff]
      exact ⟨fun ⟨enters, leaves, slashes⟩ => ⟨enters, leaves, slashes⟩,
        fun ⟨enters, leaves, slashes⟩ => ⟨enters, leaves, slashes⟩⟩)

/-- A comment without marks of block comments stays one everywhere. -/
theorem staysComment_of_unmarked {words : Text} (unopened : ¬blockOpening <:+: lineComment words)
    (unclosed : ¬blockClosing <:+: lineComment words) (front back : Text) :
    StaysComment front words back where
  enters _ := unclosed
  leaves _ open_ := by
    rw [blockOpen_false_of_unopened unopened] at open_
    exact nomatch open_
  slashes _ := by
    rw [dropBlockComments_of_not_hasBlock fun block => unopened block.opened]
    exact List.prefix_append _ _

section

variable {content line words front : Text} {before after : List Text}

/-- Within a block comment that is closed below, a comment that closes nothing is lost with it. -/
theorem dropBlockComments_comment_of_closed (open_ : blockOpen false front = true)
    (unclosed : ¬blockClosing <:+: lineComment words)
    (closed : blockClosing <:+: Text.beginLines after) :
    dropBlockComments none (front ++ ' ' :: (lineComment words ++ Text.beginLines after)) =
      dropBlockComments none (front ++ Text.beginLines after) := by
  have unclosed : ¬blockClosing <:+: ' ' :: lineComment words :=
    mt (Text.infix_cons_of_not_mem (by decide) (by decide)).1 unclosed
  obtain ⟨code, inside, -, -, goesOn⟩ :=
    exists_code_of_open (show blockOpen (none : Option Text).isSome front = true from open_)
  rw [goesOn ' ' _ (by decide), ← List.cons_append,
    dropBlockComments_some_append unclosed (head_beginLines after) closed inside inside]
  cases after with
  | nil => exact absurd (List.infix_nil.1 closed) (by decide)
  | cons next rest => exact (goesOn '\n' _ (by decide)).symm

/-- What is put in between two texts leaves their seam free if it closes nothing. -/
theorem seamFree_space_append {middle back : Text} (other : ∀ d ∈ back.head?, d ∉ blockOpening)
    (enters : blockOpen false front = true → ¬blockClosing <:+: middle)
    (apart : SeamFree front back) : SeamFree front (' ' :: (middle ++ back)) := by
  intro open_ closed
  rw [Text.infix_cons_of_not_mem (by decide) (by decide)] at closed
  cases back with
  | nil => exact enters open_ (by rwa [List.append_nil] at closed)
  | cons d back =>
      have other : d ∉ blockClosing := not_mem_blockClosing (other d rfl)
      rcases (Text.infix_append_cons other).1 closed with inMiddle | behind
      · exact enters open_ inMiddle
      · exact apart open_ (List.infix_cons behind)

/-- Otherwise what is in front of the comment and what is behind it is read as without the comment. -/
theorem exists_dropBlockComments_comment (stays : StaysComment front words (Text.beginLines after))
    (apart : SeamFree front (Text.beginLines after)) :
    ∃ rest, (∀ c ∈ rest, c ∈ words) ∧
      dropBlockComments none (front ++ ' ' :: (lineComment words ++ Text.beginLines after)) =
        dropBlockComments none front ++
          (' ' :: lineComment rest ++ dropBlockComments none (Text.beginLines after)) ∧
      dropBlockComments none (front ++ Text.beginLines after) =
        dropBlockComments none front ++ dropBlockComments none (Text.beginLines after) := by
  have feed := head_beginLines after
  have enters : SeamFree front (' ' :: (lineComment words ++ Text.beginLines after)) :=
    seamFree_space_append feed stays.enters apart
  have leaves : SeamFree (lineComment words) (Text.beginLines after) := by
    cases open_ : blockOpen false front with
    | false => exact stays.leaves open_
    | true => exact fun _ => apart open_
  have slashes : ['/', '/'] <+: dropBlockComments none (lineComment words) := by
    cases open_ : blockOpen false front with
    | false => exact stays.slashes open_
    | true =>
        rw [dropBlockComments_of_not_hasBlock fun block => stays.enters open_ block.closed]
        exact List.prefix_append _ words
  obtain ⟨rest, left⟩ := slashes
  have fewer : rest.Sublist words := by
    have fewer := dropBlockComments_sublist none (lineComment words)
    rw [← left] at fewer
    exact List.cons_sublist_cons.1 (List.cons_sublist_cons.1 fewer)
  refine ⟨rest, fun c member => fewer.subset member, ?_, dropBlockComments_append apart feed⟩
  rw [dropBlockComments_append enters (not_mem_of_head?_cons (by decide) _),
    dropBlockComments_cons_of_not_mem (by decide), dropBlockComments_append leaves feed, ← left]
  rfl

/-- **A line comment that stays one counts for nothing**, whatever is in front of it and behind. -/
theorem normalizeLogic_commentBehind (free : '\n' ∉ words)
    (lines : content.lines = before ++ line :: after)
    (stays : StaysComment (Text.endLines before ++ line) words (Text.beginLines after)) :
    normalizeLogic .slash (commentBehind words before line after) =
      normalizeLogic .slash content := by
  let front : Text := Text.endLines before ++ line
  have whole : content = front ++ Text.beginLines after := by
    rw [Text.eq_of_lines_eq lines, List.append_assoc]
  have edited : commentBehind words before line after =
      front ++ ' ' :: (lineComment words ++ Text.beginLines after) := by
    simp [commentBehind, Text.unlines_append_cons, Text.unlines_cons, front]
  rw [normalizeLogic_eq, normalizeLogic_eq]
  change Text.unlines (((dropBlockComments none _).lines.map _).filter _) =
    Text.unlines (((dropBlockComments none _).lines.map _).filter _)
  rw [edited, whole]
  by_cases apart : SeamFree front (Text.beginLines after)
  · obtain ⟨rest, fewer, with_, without⟩ := exists_dropBlockComments_comment stays apart
    have comment : Text.lines (' ' :: lineComment rest) = [] ++ [' ' :: lineComment rest] := by
      refine Text.split_of_not_mem ?_
      simp only [lineComment, List.cons_append, List.nil_append, List.mem_cons, not_or]
      exact ⟨by decide, by decide, by decide, fun feed => free (fewer _ feed)⟩
    have ignored : ∀ last : Text,
        logicOf .slash (last ++ ' ' :: lineComment rest) = logicOf .slash last :=
      logicOf_append Text.isBlank_of_mem_space (by decide) rfl
    obtain ⟨above, last, linesFront⟩ := Text.exists_lines_eq_append (dropBlockComments none front)
    obtain ⟨below, linesBack⟩ := lines_dropBlockComments_beginLines after
    rw [with_, without, Text.lines_append linesFront linesBack,
      Text.lines_append linesFront (Text.lines_append comment linesBack)]
    simp only [List.append_nil, List.map_append, List.map_cons, ignored]
  · obtain ⟨open_, closed⟩ := Classical.not_imp.1 apart
    rw [dropBlockComments_comment_of_closed open_ (stays.enters open_) (Classical.not_not.1 closed)]

/-! ## Comments that count -/

theorem not_mem_normalizeLogic_slash (free : '\n' ∉ dropBlockComments none content) :
    '\n' ∉ normalizeLogic .slash content := by
  have one : (dropBlockComments none content).lines = [dropBlockComments none content] :=
    Text.split_of_not_mem free
  rw [normalizeLogic_eq, show withoutBlocks .slash content = dropBlockComments none content from rfl,
    one, List.map_singleton, List.filter_cons]
  split
  · exact not_mem_logicOf free
  · exact List.not_mem_nil

/-- Behind a line below an opening mark, a closing mark takes both with it. -/
theorem not_mem_logic_of_closed (free : '\n' ∉ words)
    (closed : blockClosing <:+: lineComment words) :
    '\n' ∉ normalizeLogic .slash (commentBehind words ["/*".toList] "x".toList []) := by
  have text : commentBehind words ["/*".toList] "x".toList [] =
      blockOpening ++ (['\n', 'x', ' '] ++ lineComment words) := rfl
  have feeds : '\n' ∉ ['x', ' '] ++ lineComment words := by simp [lineComment, free]
  apply not_mem_normalizeLogic_slash
  obtain ⟨within, rest, parts, left, -⟩ :=
    exists_rest_of_block (closed.trans (List.suffix_append ['\n', 'x', ' '] _).isInfix)
  rw [text, left]
  intro feed
  have among : '\n' ∈ rest := (dropBlockComments_sublist none rest).subset feed
  -- The only line feed stands in front of the closing mark.
  cases within with
  | nil => exact absurd (List.cons.inj parts).1 (by decide)
  | cons c within =>
      rw [show ['x', ' '] ++ lineComment words = within ++ blockClosing ++ rest from
        (List.cons.inj parts).2] at feeds
      exact feeds (List.mem_append_right _ among)

/-- An opening mark takes what is below up to a closing mark with it. -/
theorem not_mem_logic_of_opened (free : '\n' ∉ words)
    (opened : blockOpening <:+: lineComment words)
    (unclosed : ¬blockClosing <:+: lineComment words) :
    '\n' ∉ normalizeLogic .slash (commentBehind words [] "x".toList ["*/".toList]) := by
  let front : Text := 'x' :: ' ' :: lineComment words
  have text : commentBehind words [] "x".toList ["*/".toList] = front ++ '\n' :: blockClosing := rfl
  have feeds : '\n' ∉ front := by simp [front, lineComment, free]
  have open_ : blockOpen (none : Option Text).isSome front = true := by
    refine blockOpen_false_of_opened (opened.trans (List.suffix_append ['x', ' '] _).isInfix) ?_
    rw [show front = ['x'] ++ ' ' :: lineComment words from rfl, Text.infix_append_cons (by decide)]
    exact fun closed => closed.elim (by decide) unclosed
  obtain ⟨code, inside, among, -, goesOn⟩ := exists_code_of_open open_
  apply not_mem_normalizeLogic_slash
  rw [text, goesOn '\n' blockClosing (by decide), show dropBlockComments (some inside) _ = [] from rfl,
    List.append_nil]
  exact fun feed => feeds (among _ feed)

end

/-- **Which line comments count for nothing.**  One does behind any line of any text, if it stays a
comment up to the end of its line there.  One with certain words does behind every line that neither
lies in a block comment nor opens one and that has no quotes, exactly if the words hold no mark of a
block comment. -/
theorem normalizeLogic_lineComment_iff {words : Text} (free : '\n' ∉ words) :
    (∀ (content : Text) (before : List Text) (line : Text) (after : List Text),
      content.lines = before ++ line :: after →
      StaysComment (Text.endLines before ++ line) words (Text.beginLines after) →
      normalizeLogic .slash (commentBehind words before line after) =
        normalizeLogic .slash content) ∧
    ((∀ (content : Text) (before : List Text) (line : Text) (after : List Text),
        content.lines = before ++ line :: after →
        OutsideBlocks (Text.endLines before) line (Text.beginLines after) →
        '"' ∉ line ∧ '\'' ∉ line →
        normalizeLogic .slash (commentBehind words before line after) =
          normalizeLogic .slash content) ↔
      ¬blockOpening <:+: lineComment words ∧ ¬blockClosing <:+: lineComment words) := by
  refine ⟨fun content before line after => normalizeLogic_commentBehind free, fun same => ?_, ?_⟩
  · have unclosed : ¬blockClosing <:+: lineComment words := by
      intro closed
      have swallowed := not_mem_logic_of_closed free closed
      rw [same "/*\nx".toList _ _ _ (by decide) (by decide) (by decide)] at swallowed
      exact absurd swallowed (by decide)
    refine ⟨fun opened => ?_, unclosed⟩
    have swallowed := not_mem_logic_of_opened free opened unclosed
    rw [same "x\n*/".toList _ _ _ (by decide) (by decide) (by decide)] at swallowed
    exact absurd swallowed (by decide)
  · rintro ⟨unopened, unclosed⟩ content before line after lines - -
    exact normalizeLogic_commentBehind free lines (staysComment_of_unmarked unopened unclosed _ _)

/-- A comment with a pattern and a closed block comment in its words, below a closing mark. -/
theorem normalizeLogic_lineComment_whole :
    let words : Text := " src/*.rs, see /* b */".toList
    let content : Text := "int a; // */\nint b;\n".toList
    '\n' ∉ words ∧
      normalizeLogic .slash "int a; // */\nint b; // src/*.rs, see /* b */\n".toList =
        normalizeLogic .slash content := by
  intro words content
  have free : '\n' ∉ words := by decide
  have lines : content.lines = ["int a; // */".toList] ++ "int b;".toList :: [[]] := by decide
  exact ⟨free, (normalizeLogic_lineComment_iff free).1 content _ _ _ lines (by decide)⟩

/-- A pattern in a line comment takes the next line of code with it. -/
theorem lineComment_swallows_code :
    ¬∀ (words content : Text) (before : List Text) (line : Text) (after : List Text),
      '\n' ∉ words → content.lines = before ++ line :: after →
      OutsideBlocks (Text.endLines before) line (Text.beginLines after) →
      '"' ∉ line ∧ '\'' ∉ line →
      normalizeLogic .slash (commentBehind words before line after) =
        normalizeLogic .slash content := by
  intro same
  have lost := same " glob src/*.rs".toList
    "let a = 1;\nlet b = 2; /* note */\nlet c = 3;".toList [] "let a = 1;".toList
    ["let b = 2; /* note */".toList, "let c = 3;".toList]
    (by decide) (by decide) (by decide) (by decide)
  exact absurd lost (by decide +kernel)

end Traceability
