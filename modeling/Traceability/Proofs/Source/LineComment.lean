/-
# Traceability.Proofs.Source.LineComment -- what a line comment leaves of its line

A line comment reaches to the end of its line, so what is left is a beginning of
the line (`dropLineComment_isPrefix`), and it holds no further comment
(`dropLineComment_dropLineComment`).

Where a line goes on with a character that belongs to no mark, the two parts can
be read one after the other: the second part counts only if there is no comment in
the first (`dropLineComment_append`), and of the first part it sees no more than
the last character.  Behind a blank it sees nothing at all, since no blank shields a
mark (`dropLineComment_run`).
-/
import Traceability.Proofs.Text.Occurrence
import Traceability.Proofs.Source.Comment

namespace Traceability

set_option autoImplicit false

namespace CommentStyle

variable {style : CommentStyle} {c : Char}

theorem mark_ne_nil (style : CommentStyle) : style.mark ≠ [] := by
  cases style <;> exact List.cons_ne_nil _ _

theorem not_mem_mark_of_isBlank (blank : Text.isBlank c = true) : c ∉ style.mark := by
  have hash : c ≠ '#' := Text.ne_of_isBlank blank (by decide)
  have slash : c ≠ '/' := Text.ne_of_isBlank blank (by decide)
  cases style <;> simp [mark, hash, slash]

/-- A blank shields no mark. -/
theorem not_shields_of_isBlank (blank : Text.isBlank c = true) :
    (some c).any style.shields.contains = false := by
  have double : c ≠ '"' := Text.ne_of_isBlank blank (by decide)
  have single : c ≠ '\'' := Text.ne_of_isBlank blank (by decide)
  have colon : c ≠ ':' := Text.ne_of_isBlank blank (by decide)
  cases style <;> simp [shields, double, single, colon]

end CommentStyle

section

variable {style : CommentStyle} {before : Option Char}

/-! ## One comment -/

/-- The mark of a comment starts at the character that follows `before`. -/
theorem dropLineComment_of_starts {c : Char} {rest : Text} (mark : style.mark <+: c :: rest)
    (unshielded : before.any style.shields.contains = false) :
    dropLineComment style before (c :: rest) = [] := by
  rw [dropLineComment, List.isPrefixOf_iff_prefix.2 mark, unshielded]
  rfl

/-- No comment starts at a character that does not begin a mark, or that is shielded. -/
theorem dropLineComment_cons {c : Char} {rest : Text}
    (none_ : style.mark <+: c :: rest → before.any style.shields.contains = true) :
    dropLineComment style before (c :: rest) = c :: dropLineComment style (some c) rest := by
  rw [dropLineComment, if_neg]
  rw [Bool.and_eq_true, List.isPrefixOf_iff_prefix, Bool.not_eq_true']
  rintro ⟨mark, unshielded⟩
  rw [none_ mark] at unshielded
  exact absurd unshielded (by decide)

theorem dropLineComment_isPrefix (style : CommentStyle) (before : Option Char) (line : Text) :
    dropLineComment style before line <+: line := by
  induction line generalizing before with
  | nil => exact List.prefix_refl []
  | cons c rest ih =>
      rw [dropLineComment]
      split
      · exact List.nil_prefix
      · exact List.cons_prefix_cons.2 ⟨rfl, ih (some c)⟩

/-- What a comment leaves holds no comment. -/
theorem dropLineComment_dropLineComment (style : CommentStyle) (before : Option Char)
    (line : Text) : dropLineComment style before (dropLineComment style before line) =
      dropLineComment style before line := by
  induction line generalizing before with
  | nil => rfl
  | cons c rest ih =>
      by_cases starts : style.mark <+: c :: rest → before.any style.shields.contains = true
      · have less : c :: dropLineComment style (some c) rest <+: c :: rest :=
          List.cons_prefix_cons.2 ⟨rfl, dropLineComment_isPrefix style (some c) rest⟩
        rw [dropLineComment_cons starts,
          dropLineComment_cons fun mark => starts (mark.trans less), ih]
      · obtain ⟨mark, unshielded⟩ := Classical.not_imp.1 starts
        rw [dropLineComment_of_starts mark (Bool.eq_false_iff.2 unshielded)]
        rfl

/-- A line without a mark holds no comment. -/
theorem dropLineComment_of_unmarked {line : Text} (unmarked : ¬style.mark <:+: line) :
    dropLineComment style before line = line := by
  induction line generalizing before with
  | nil => rfl
  | cons c rest ih =>
      rw [List.infix_cons_iff, not_or] at unmarked
      rw [dropLineComment_cons fun mark => absurd mark unmarked.1, ih unmarked.2]

/-- Where nothing shields the first mark, it does not matter what stands in front. -/
theorem dropLineComment_of_unshielded (unshielded : before.any style.shields.contains = false)
    (line : Text) : dropLineComment style before line = dropLineComment style none line := by
  cases line with
  | nil => rfl
  | cons c rest => rw [dropLineComment, dropLineComment, unshielded, Option.any_none]

/-! ## Two parts of a line -/

/-- No comment starts at a character that belongs to no mark. -/
theorem dropLineComment_cons_of_not_mem {c : Char} (other : c ∉ style.mark) (rest : Text) :
    dropLineComment style before (c :: rest) = c :: dropLineComment style (some c) rest := by
  apply dropLineComment_cons
  exact fun mark => absurd mark (Text.not_prefix_cons other style.mark_ne_nil rest)

/-- The second part of a line is read only if there is no comment in the first. -/
theorem dropLineComment_append {c : Char} (other : c ∉ style.mark) (front rest : Text) :
    dropLineComment style before (front ++ c :: rest) =
      if dropLineComment style before front = front then
        front ++ c :: dropLineComment style (some c) rest
      else dropLineComment style before front := by
  induction front generalizing before with
  | nil => exact dropLineComment_cons_of_not_mem other rest
  | cons d front ih =>
      rw [List.cons_append]
      by_cases starts : style.mark <+: d :: front → before.any style.shields.contains = true
      · rw [dropLineComment_cons starts, dropLineComment_cons, ih]
        · simp only [List.cons.injEq, true_and]
          split <;> rfl
        · rwa [← List.cons_append, Text.prefix_append_cons other]
      · obtain ⟨mark, unshielded⟩ := Classical.not_imp.1 starts
        have unshielded := Bool.eq_false_iff.2 unshielded
        rw [dropLineComment_of_starts mark unshielded, dropLineComment_of_starts _ unshielded]
        · rfl
        · rwa [← List.cons_append, Text.prefix_append_cons other]

/-- Behind blanks a line is read as from its beginning. -/
theorem dropLineComment_blanks {blanks : Text} (blank : ∀ c ∈ blanks, Text.isBlank c = true)
    (unshielded : before.any style.shields.contains = false) (rest : Text) :
    dropLineComment style before (blanks ++ rest) = blanks ++ dropLineComment style none rest := by
  induction blanks generalizing before with
  | nil => exact dropLineComment_of_unshielded unshielded rest
  | cons c blanks ih =>
      obtain ⟨here, later⟩ := List.forall_mem_cons.1 blank
      rw [List.cons_append,
        dropLineComment_cons_of_not_mem (CommentStyle.not_mem_mark_of_isBlank here),
        ih later (CommentStyle.not_shields_of_isBlank here), List.cons_append]

/-- A run of blanks within a line stays as it is, unless it stands in a comment. -/
theorem dropLineComment_run {run : Text} (blank : ∀ c ∈ run, Text.isBlank c = true)
    (nonempty : run ≠ []) (front rest : Text) :
    dropLineComment style before (front ++ (run ++ rest)) =
      if dropLineComment style before front = front then
        front ++ (run ++ dropLineComment style none rest)
      else dropLineComment style before front := by
  obtain ⟨c, run, rfl⟩ := List.exists_cons_of_ne_nil nonempty
  obtain ⟨here, later⟩ := List.forall_mem_cons.1 blank
  rw [List.cons_append, dropLineComment_append (CommentStyle.not_mem_mark_of_isBlank here),
    dropLineComment_blanks later (CommentStyle.not_shields_of_isBlank here)]
  rfl

end

end Traceability
