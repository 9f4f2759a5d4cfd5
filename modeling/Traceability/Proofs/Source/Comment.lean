/-
# Traceability.Proofs.Source.Comment -- lines that are nothing but a comment

Where no comment goes on over the end of a line, the logic of a text is the logic
of its lines, one by one, without the empty ones (`normalizeLogic_unlines`).  A
line that has a number sign behind its blanks has no logic (`logicOf_of_isNote`),
so it may stand anywhere among the lines (`normalizeLogic_note`).
-/
import Traceability.Proofs.Text.Lines
import Traceability.Source.Comment

namespace Traceability

set_option autoImplicit false

namespace Text

/-! ## Blanks -/

theorem isBlank_of_mem_indentation {line : Text} {c : Char} (member : c ∈ line.indentation) :
    isBlank c = true :=
  List.all_eq_true.1 List.all_takeWhile c member

theorem ne_of_isBlank {c d : Char} (blank : isBlank c = true) (visible : isBlank d = false) :
    c ≠ d := by
  rintro rfl
  rw [visible] at blank
  exact nomatch blank

theorem trimLeft_append {blanks : Text} (blank : ∀ c ∈ blanks, isBlank c = true) (rest : Text) :
    (blanks ++ rest).trimLeft = rest.trimLeft :=
  List.dropWhile_append_of_pos blank

theorem trimLeft_of_blank {text : Text} (blank : ∀ c ∈ text, isBlank c = true) :
    text.trimLeft = [] := by
  have dropped := trimLeft_append blank []
  rwa [List.append_nil] at dropped

theorem indentation_append_cons {blanks : Text} (blank : ∀ c ∈ blanks, isBlank c = true) {c : Char}
    (visible : isBlank c = false) (rest : Text) : (blanks ++ c :: rest).indentation = blanks := by
  rw [indentation, List.takeWhile_append_of_pos blank, List.takeWhile_cons, visible]
  exact List.append_nil blanks

end Text

/-- Does the line have nothing but blanks in front of a number sign? -/
def isNote (line : Text) : Bool := line.trimLeft.head? == some '#'

theorem eq_of_isNote {line : Text} (note : isNote line = true) :
    ∃ rest, line = line.indentation ++ '#' :: rest := by
  obtain ⟨rest, behind⟩ := List.head?_eq_some_iff.1 (eq_of_beq note)
  exact ⟨rest, by rw [← behind, Text.indentation_append_trimLeft]⟩

/-! ## Line by line -/

theorem mem_of_mem_dropLineComment {style : CommentStyle} {before : Option Char} {line : Text}
    {c : Char} (member : c ∈ dropLineComment style before line) : c ∈ line := by
  induction line generalizing before with
  | nil => exact member
  | cons d rest ih =>
      rw [dropLineComment] at member
      split at member
      · exact absurd member List.not_mem_nil
      · rcases List.mem_cons.1 member with rfl | later
        · exact List.mem_cons_self
        · exact List.mem_cons_of_mem d (ih later)

/-- The logic of a line by itself. -/
def logicOf (style : CommentStyle) (line : Text) : Text :=
  normalizeLine (dropLineComment style none line)

/-- The text in which line comments are looked for. -/
def withoutBlocks (style : CommentStyle) (content : Text) : Text :=
  if style.hasBlocks then dropBlockComments none content else content

/-- The text without line comments. -/
def dropLineComments (style : CommentStyle) (text : Text) : Text :=
  Text.unlines (text.lines.map (dropLineComment style none))

theorem stripComments_eq (style : CommentStyle) (content : Text) :
    stripComments style content = dropLineComments style (withoutBlocks style content) := rfl

theorem lines_dropLineComments (style : CommentStyle) (text : Text) :
    (dropLineComments style text).lines = text.lines.map (dropLineComment style none) := by
  have free : ∀ line ∈ text.lines.map (dropLineComment style none), '\n' ∉ line := by
    intro line member
    obtain ⟨whole, among, rfl⟩ := List.mem_map.1 member
    exact fun feed => Text.not_mem_of_mem_lines among (mem_of_mem_dropLineComment feed)
  exact Text.lines_unlines (by simp [Text.lines_ne_nil]) free

/-- The logic of a text is that of its lines, once its block comments are gone. -/
theorem normalizeLogic_eq (style : CommentStyle) (content : Text) :
    normalizeLogic style content = Text.unlines
      (((withoutBlocks style content).lines.map (logicOf style)).filter (!·.isEmpty)) := by
  rw [normalizeLogic, stripComments_eq, lines_dropLineComments, List.map_map]
  rfl

/-- Without block comments the logic of a text is that of its lines. -/
theorem normalizeLogic_unlines {style : CommentStyle} (noBlocks : style.hasBlocks = false)
    {texts : List Text} (nonempty : texts ≠ []) (free : ∀ line ∈ texts, '\n' ∉ line) :
    normalizeLogic style (Text.unlines texts) =
      Text.unlines ((texts.map (logicOf style)).filter (!·.isEmpty)) := by
  rw [normalizeLogic_eq, withoutBlocks, noBlocks, if_neg Bool.false_ne_true,
    Text.lines_unlines nonempty free]

/-! ## Notes -/

theorem mem_collapseBlanks {inRun : Bool} {text : Text} {c : Char}
    (member : c ∈ collapseBlanks inRun text) : c = ' ' ∨ c ∈ text := by
  induction text generalizing inRun with
  | nil => exact absurd member List.not_mem_nil
  | cons d rest ih =>
      rw [collapseBlanks] at member
      split at member
      · split at member
        · exact (ih member).imp_right (List.mem_cons_of_mem d)
        · rcases List.mem_cons.1 member with space | later
          · exact Or.inl space
          · exact (ih later).imp_right (List.mem_cons_of_mem d)
      · rcases List.mem_cons.1 member with rfl | later
        · exact Or.inr List.mem_cons_self
        · exact (ih later).imp_right (List.mem_cons_of_mem d)

theorem normalizeLine_of_blank {line : Text} (blank : ∀ c ∈ line, Text.isBlank c = true) :
    normalizeLine line = [] := by
  have collapsed : ∀ c ∈ collapseBlanks false line, Text.isBlank c = true := by
    intro c member
    rcases mem_collapseBlanks member with rfl | old
    · decide
    · exact blank c old
  rw [normalizeLine, Text.trim, Text.trimLeft_of_blank collapsed]
  rfl

/-- Up to its number sign a note is blank, and nothing in front of the sign shields it. -/
theorem dropLineComment_hash {blanks : Text} (blank : ∀ c ∈ blanks, Text.isBlank c = true)
    (rest : Text) {before : Option Char}
    (open_ : before.any CommentStyle.hash.shields.contains = false) :
    dropLineComment .hash before (blanks ++ '#' :: rest) = blanks := by
  induction blanks generalizing before with
  | nil => simp [dropLineComment, CommentStyle.mark, open_]
  | cons c blanks ih =>
      obtain ⟨here, later⟩ := List.forall_mem_cons.1 blank
      have noMark : c ≠ '#' := Text.ne_of_isBlank here (by decide)
      have noShield : (some c).any CommentStyle.hash.shields.contains = false := by
        have double : c ≠ '"' := Text.ne_of_isBlank here (by decide)
        have single : c ≠ '\'' := Text.ne_of_isBlank here (by decide)
        simp [CommentStyle.shields, double, single]
      rw [List.cons_append, dropLineComment, ih later noShield]
      simp [CommentStyle.mark, noMark.symm]

/-- A note has no logic. -/
theorem logicOf_of_isNote {line : Text} (note : isNote line = true) : logicOf .hash line = [] := by
  have blank : ∀ c ∈ line.indentation, Text.isBlank c = true :=
    fun c member => Text.isBlank_of_mem_indentation member
  obtain ⟨rest, parts⟩ := eq_of_isNote note
  rw [logicOf, parts, dropLineComment_hash blank rest rfl]
  exact normalizeLine_of_blank blank

/-- **A note changes no logic**, wherever it stands among the lines. -/
theorem normalizeLogic_note {before after : List Text} {note : Text} (isNote : isNote note = true)
    (nonempty : before ++ after ≠ []) (free : ∀ line ∈ before ++ note :: after, '\n' ∉ line) :
    normalizeLogic .hash (Text.unlines (before ++ note :: after)) =
      normalizeLogic .hash (Text.unlines (before ++ after)) := by
  have without : ∀ line ∈ before ++ after, '\n' ∉ line := by
    intro line member
    apply free
    exact ((List.Sublist.refl before).append (List.sublist_cons_self note after)).subset member
  rw [normalizeLogic_unlines rfl (by simp) free, normalizeLogic_unlines rfl nonempty without]
  simp [logicOf_of_isNote isNote]

end Traceability
