/-
# Traceability.Proofs.Source.Stripping -- stripping comments twice

Line comments are gone once they have been taken out
(`dropLineComments_dropLineComments`).  Block comments are taken out before them, over
all lines, and what stood around one meets, so a new one can come about.  Stripping
twice is stripping once exactly if no block comment is left, and one is left only where
a slash stands right in front of a block comment and a star right behind one
(`stripComments_again_iff`).  In particular, that takes two slashes with a star behind
them, which a reader of the language takes for a line comment.
-/
import Traceability.Proofs.Source.BlockComment
import Traceability.Proofs.Source.LineComment

namespace Traceability

set_option autoImplicit false

/-! ## Line comments -/

section

variable (style : CommentStyle)

theorem dropLineComments_dropLineComments (text : Text) :
    dropLineComments style (dropLineComments style text) = dropLineComments style text := by
  rw [dropLineComments, lines_dropLineComments, List.map_map, dropLineComments]
  congr 2
  funext line
  exact dropLineComment_dropLineComment style none line

theorem joinWith_map_sublist {separator : Char} {cut : Text → Text}
    (beginning : ∀ piece, cut piece <+: piece) (pieces : List Text) :
    (Text.joinWith separator (pieces.map cut)).Sublist (Text.joinWith separator pieces) := by
  induction pieces with
  | nil => exact List.Sublist.refl []
  | cons piece others ih =>
      by_cases last : others = []
      · subst last
        exact (beginning piece).sublist
      · rw [List.map_cons, Text.joinWith_cons _ _ last,
          Text.joinWith_cons _ _ (mt List.map_eq_nil_iff.1 last)]
        exact (beginning piece).sublist.append (ih.cons_cons separator)

theorem length_dropLineComments_le (text : Text) :
    (dropLineComments style text).length ≤ text.length := by
  have less : (dropLineComments style text).Sublist (Text.joinWith '\n' text.lines) :=
    joinWith_map_sublist (dropLineComment_isPrefix style none) text.lines
  rw [Text.lines, Text.joinWith_split] at less
  exact less.length_le

/-! ## Block comments -/

/-- Cutting off the ends of lines puts no block comment together. -/
theorem hasBlock_of_joinWith_map {cut : Text → Text} (beginning : ∀ piece, cut piece <+: piece)
    {pieces : List Text} (block : HasBlock (Text.joinWith '\n' (pieces.map cut))) :
    HasBlock (Text.joinWith '\n' pieces) := by
  induction pieces with
  | nil => exact block
  | cons piece others ih =>
      by_cases last : others = []
      · subst last
        exact block.mono (beginning piece).isInfix
      · have cutLast : others.map cut ≠ [] := mt List.map_eq_nil_iff.1 last
        rw [List.map_cons, Text.joinWith_cons _ _ cutLast] at block
        rw [Text.joinWith_cons _ _ last]
        rcases block.of_append_cons (by decide) with inPiece | ⟨opened, closed⟩ | inOthers
        · exact inPiece.mono ((beginning piece).isInfix.trans (List.prefix_append _ _).isInfix)
        · -- The comment reaches from the piece into the others.
          rw [Text.infix_joinWith (by decide) cutLast] at closed
          obtain ⟨short, member, closed⟩ := closed
          obtain ⟨other, among, rfl⟩ := List.mem_map.1 member
          obtain ⟨before, inside, whole⟩ := opened.trans (beginning piece).isInfix
          have closed : blockClosing <:+: Text.joinWith '\n' others :=
            (Text.infix_joinWith (by decide) last).2
              ⟨other, among, closed.trans (beginning other).isInfix⟩
          obtain ⟨within, after, parts⟩ := closed
          exact ⟨before, inside ++ '\n' :: within, after, by simp [← whole, ← parts]⟩
        · exact (ih inOthers).mono
            ((List.suffix_cons _ _).isInfix.trans (List.suffix_append _ _).isInfix)

theorem hasBlock_of_dropLineComments {text : Text}
    (block : HasBlock (dropLineComments style text)) : HasBlock text := by
  have joined := hasBlock_of_joinWith_map (dropLineComment_isPrefix style none) block
  rwa [Text.lines, Text.joinWith_split] at joined

/-! ## Twice -/

theorem withoutBlocks_eq_self_iff {text : Text} :
    withoutBlocks style text = text ↔ ¬(style.hasBlocks = true ∧ HasBlock text) := by
  rw [withoutBlocks]
  split
  · rename_i blocks
    rw [dropBlockComments_eq_self_iff, and_iff_right blocks]
  · rename_i noBlocks
    exact iff_of_true rfl fun both => noBlocks both.1

/-- **Comments are gone after stripping them once, exactly if no block comment is left.**  Where one
is left, a slash stands right in front of a block comment, and a star right behind that one or a
later one. -/
theorem stripComments_again_iff (content : Text) :
    (stripComments style (stripComments style content) = stripComments style content ↔
      ¬(style.hasBlocks = true ∧ HasBlock (stripComments style content))) ∧
    (style.hasBlocks = true ∧ HasBlock (stripComments style content) →
      ∃ before within after, content =
        before ++ '/' :: blockOpening ++ within ++ blockClosing ++ '*' :: after) := by
  have once : stripComments style content =
      dropLineComments style (withoutBlocks style content) := stripComments_eq style content
  refine ⟨⟨?_, fun free => ?_⟩, ?_⟩
  · -- If a block comment is taken out now, the text becomes shorter.
    rintro same ⟨blocks, block⟩
    have shorter := block.length_dropBlockComments_lt
    have less := length_dropLineComments_le style (withoutBlocks style (stripComments style content))
    rw [← stripComments_eq, same, withoutBlocks, if_pos blocks] at less
    exact absurd (Nat.lt_of_le_of_lt less shorter) (Nat.lt_irrefl _)
  · rw [stripComments_eq, (withoutBlocks_eq_self_iff style).2 free, once,
      dropLineComments_dropLineComments]
  · rintro ⟨blocks, block⟩
    rw [once, withoutBlocks, if_pos blocks] at block
    exact exists_splice_of_hasBlock (hasBlock_of_dropLineComments style block)

/-- What stands around a block comment becomes one. -/
theorem stripComments_leaves_block :
    ¬∀ content : Text, stripComments .slash (stripComments .slash content) =
      stripComments .slash content := by
  intro same
  exact absurd (same "x = 1 //*off*/* on */".toList) (by decide +kernel)

end

end Traceability
