/-
# Traceability.Proofs.Text.Occurrence -- occurrences in a text and in its lines

`occursIn` decides whether a text stands within another as a contiguous block
(`occursIn_iff`).  A text without line feeds that stands within another stands
within one of its lines, and the other way round (`infix_iff_exists_line`).

The first occurrence of a text is the one that is replaced (`replaceFirst_append`).
-/
import Traceability.Proofs.Text.Lines

namespace Traceability.Text

set_option autoImplicit false

theorem occursIn_iff (needle text : Text) : occursIn needle text = true ↔ needle <:+: text := by
  induction text with
  | nil => rw [occursIn, List.isEmpty_iff, List.infix_nil]
  | cons c rest ih =>
      rw [occursIn, Bool.or_eq_true, List.isPrefixOf_iff_prefix, ih, List.infix_cons_iff]

/-- A beginning without a separator does not reach over it. -/
theorem prefix_append_cons {c : Char} {start : Text} (free : c ∉ start) {front back : Text} :
    start <+: front ++ c :: back ↔ start <+: front := by
  refine ⟨fun starts => ?_, fun starts => starts.trans (List.prefix_append _ _)⟩
  have upTo : front ++ [c] <+: front ++ c :: back :=
    (List.prefix_append_right_inj front).2 (List.cons_prefix_cons.2 ⟨rfl, List.nil_prefix⟩)
  rcases List.prefix_or_prefix_of_prefix starts upTo with short | long
  · rcases List.prefix_concat_iff.1 short with whole | short
    · exact absurd (by rw [whole]; simp) free
    · exact short
  · exact absurd (long.subset (by simp)) free

theorem not_prefix_cons {c : Char} {start : Text} (free : c ∉ start) (nonempty : start ≠ [])
    (rest : Text) : ¬start <+: c :: rest := by
  intro starts
  obtain ⟨d, start, rfl⟩ := List.exists_cons_of_ne_nil nonempty
  rw [(List.cons_prefix_cons.1 starts).1] at free
  exact free List.mem_cons_self

theorem infix_cons_of_not_mem {c : Char} {needle : Text} (free : c ∉ needle) (nonempty : needle ≠ [])
    {text : Text} : needle <:+: c :: text ↔ needle <:+: text := by
  rw [List.infix_cons_iff, or_iff_right (not_prefix_cons free nonempty text)]

/-- A block without a separator stands on one side of it. -/
theorem infix_append_cons {c : Char} {needle : Text} (free : c ∉ needle) {front back : Text} :
    needle <:+: front ++ c :: back ↔ needle <:+: front ∨ needle <:+: back := by
  constructor
  · rintro ⟨before, after, whole⟩
    -- The block would have to hold the separator if it reached across.
    rcases List.append_eq_append_iff.1 whole with ⟨rest, inFront, -⟩ | ⟨rest, inFront, tail⟩
    · exact Or.inl ⟨before, rest, inFront.symm⟩
    · cases rest with
      | nil => exact Or.inl ⟨before, [], by simpa using inFront⟩
      | cons d rest =>
          obtain ⟨rfl, rfl⟩ := List.cons.inj tail
          rcases List.append_eq_append_iff.1 inFront with ⟨mid, -, within⟩ | ⟨mid, -, within⟩
          · exact absurd (by rw [within]; simp) free
          · cases mid with
            | nil => exact absurd (by rw [← show c :: rest = needle from within]; simp) free
            | cons d mid =>
                obtain ⟨rfl, rfl⟩ := List.cons.inj within
                exact Or.inr ⟨mid, after, rfl⟩
  · rintro (inFront | inBack)
    · exact inFront.trans (List.prefix_append front _).isInfix
    · exact inBack.trans ((List.suffix_cons c back).isInfix.trans (List.suffix_append front _).isInfix)

theorem infix_joinWith_of_mem (separator : Char) {piece : Text} {pieces : List Text}
    (member : piece ∈ pieces) : piece <:+: joinWith separator pieces := by
  induction pieces with
  | nil => exact absurd member List.not_mem_nil
  | cons first others ih =>
      by_cases last : others = []
      · subst last
        rw [List.mem_singleton.1 member]
        exact List.infix_refl _
      · rw [joinWith_cons separator first last]
        rcases List.mem_cons.1 member with rfl | later
        · exact (List.prefix_append piece _).isInfix
        · exact (ih later).trans
            ((List.suffix_cons separator _).isInfix.trans (List.suffix_append first _).isInfix)

theorem infix_joinWith {separator : Char} {needle : Text} (free : separator ∉ needle)
    {pieces : List Text} (nonempty : pieces ≠ []) :
    needle <:+: joinWith separator pieces ↔ ∃ piece ∈ pieces, needle <:+: piece := by
  induction pieces with
  | nil => exact absurd rfl nonempty
  | cons piece others ih =>
      by_cases last : others = []
      · subst last
        simp [joinWith]
      · rw [joinWith_cons separator piece last, infix_append_cons free, ih last]
        simp only [List.mem_cons, exists_eq_or_imp]

/-- **A text without line feeds stands in another exactly when it stands in one of its lines.** -/
theorem infix_iff_exists_line {needle : Text} (free : '\n' ∉ needle) (text : Text) :
    needle <:+: text ↔ ∃ line ∈ text.lines, needle <:+: line := by
  rw [← infix_joinWith free (lines_ne_nil text), lines, joinWith_split]

/-- Lines that stand among others, one after the other, make a text that stands in theirs. -/
theorem infix_unlines {block texts : List Text} (within : block <:+: texts) :
    unlines block <:+: unlines texts := by
  obtain ⟨before, after, rfl⟩ := within
  cases block with
  | nil => exact List.nil_infix
  | cons first others =>
      rw [List.append_assoc, List.cons_append, unlines_append_cons, ← List.cons_append]
      refine List.IsInfix.trans ?_ (List.suffix_append (endLines before) _).isInfix
      cases after with
      | nil => simp
      | cons next rest =>
          rw [unlines_append_cons, endLines_eq_unlines (List.cons_ne_nil first others),
            List.append_assoc]
          exact (List.prefix_append _ _).isInfix

/-- A text that stands nowhere further up is replaced where it stands. -/
theorem replaceFirst_append {needle replacement before after : Text}
    (first : ∀ place < before.length, ¬needle <+: (before ++ needle ++ after).drop place) :
    replaceFirst needle replacement (before ++ needle ++ after) =
      before ++ replacement ++ after := by
  induction before with
  | nil =>
      rw [List.nil_append, List.nil_append]
      cases whole : needle ++ after with
      | nil =>
          obtain ⟨rfl, rfl⟩ := List.append_eq_nil_iff.1 whole
          simp [replaceFirst]
      | cons c rest =>
          have here : needle.isPrefixOf (c :: rest) = true := by
            rw [List.isPrefixOf_iff_prefix, ← whole]
            exact List.prefix_append needle after
          rw [replaceFirst, if_pos here, ← whole, List.drop_left]
  | cons c before ih =>
      have notHere : ¬needle.isPrefixOf (c :: (before ++ needle ++ after)) = true := by
        rw [List.isPrefixOf_iff_prefix]
        exact first 0 (Nat.zero_lt_succ _)
      have later : ∀ place < before.length, ¬needle <+: (before ++ needle ++ after).drop place :=
        fun place bound => first (place + 1) (Nat.succ_lt_succ bound)
      rw [List.cons_append, List.cons_append, replaceFirst, if_neg notHere, ih later]
      rfl

end Traceability.Text
