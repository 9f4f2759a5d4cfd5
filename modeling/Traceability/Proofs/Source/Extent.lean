/-
# Traceability.Proofs.Source.Extent -- how far a construct reaches

A construct covers the line that declares it and ends within the lines
(`extentLength_pos`, `extentLength_le`).

A note is a line that is nothing but a comment.  Put right above a line and
indented like it, a note goes where that line goes: into a construct that reaches
the line, and not into one that ends before it (`indentedLength_note`).  Inside an
open signature that is so because a note opens and closes no bracket, and inside
a block because it is as deep as the line below it.
-/
import Traceability.Proofs.Source.Comment
import Traceability.Source.Extent

namespace Traceability

set_option autoImplicit false

/-! ## Constructs lie within the lines -/

theorem signatureLength_le (open_ : Int) (lines : List Text) :
    signatureLength open_ lines ≤ lines.length := by
  induction lines generalizing open_ with
  | nil => exact Nat.le_refl 0
  | cons line rest ih =>
      have later := ih (open_ + bracketBalance line)
      simp only [signatureLength, List.length_cons]
      split <;> omega

theorem blockLength_le (indent : Nat) (lines : List Text) :
    blockLength indent lines ≤ lines.length := by
  induction lines with
  | nil => exact Nat.le_refl 0
  | cons line rest ih =>
      simp only [blockLength, List.length_cons]
      split
      · split <;> omega
      · split <;> omega

/-- Each line of a construct in braces is its last one, or the scan goes on behind it. -/
theorem bracedLengthFrom_cons (quotes : Text) (b : Balance) (inComment inWhere : Bool)
    (line : Text) (rest : List Text) :
    bracedLengthFrom quotes b inComment inWhere (line :: rest) = 1 ∨
      ∃ next comment where_, bracedLengthFrom quotes b inComment inWhere (line :: rest) =
        1 + bracedLengthFrom quotes next comment where_ rest := by
  simp only [bracedLengthFrom]
  generalize bareCode quotes (if inComment then .blockComment else .code) line = read
  cases b.scan read.1 with
  | none => exact Or.inl rfl
  | some next =>
      dsimp only
      split
      · exact Or.inl rfl
      · split
        · exact Or.inl rfl
        · exact Or.inr ⟨_, _, _, rfl⟩

theorem bracedLengthFrom_pos (quotes : Text) (b : Balance) (inComment inWhere : Bool)
    (line : Text) (rest : List Text) :
    0 < bracedLengthFrom quotes b inComment inWhere (line :: rest) := by
  rcases bracedLengthFrom_cons quotes b inComment inWhere line rest with last | more
  · omega
  · obtain ⟨next, comment, where_, more⟩ := more
    omega

theorem bracedLengthFrom_le (quotes : Text) (b : Balance) (inComment inWhere : Bool)
    (lines : List Text) : bracedLengthFrom quotes b inComment inWhere lines ≤ lines.length := by
  induction lines generalizing b inComment inWhere with
  | nil => exact Nat.le_refl 0
  | cons line rest ih =>
      rw [List.length_cons]
      rcases bracedLengthFrom_cons quotes b inComment inWhere line rest with last | more
      · omega
      · obtain ⟨next, comment, where_, more⟩ := more
        have later := ih next comment where_
        omega

/-- A construct ends within the lines. -/
theorem extentLength_le (family : Family) (lines : List Text) :
    extentLength family lines ≤ lines.length := by
  have indented : indentedLength lines ≤ lines.length := by
    cases lines with
    | nil => exact Nat.le_refl 0
    | cons first rest =>
        have signature := signatureLength_le 0 (first :: rest)
        have block := blockLength_le (indentWidth first)
          ((first :: rest).drop (signatureLength 0 (first :: rest)))
        rw [List.length_drop] at block
        simp only [indentedLength]
        omega
  cases family with
  | python => exact indented
  | rust | go | js | c => exact bracedLengthFrom_le _ _ _ _ lines

/-- A construct covers the line that declares it. -/
theorem extentLength_pos (family : Family) (line : Text) (rest : List Text) :
    0 < extentLength family (line :: rest) := by
  have signature : 0 < signatureLength 0 (line :: rest) := by
    simp only [signatureLength]
    split <;> omega
  cases family with
  | python => exact Nat.lt_of_lt_of_le signature (Nat.le_add_right _ _)
  | rust | go | js | c => exact bracedLengthFrom_pos _ _ _ _ line rest

/-! ## Notes -/

/-- A note with a line below it that is not blank and has the same indentation. -/
structure StandsAbove (note next : Text) : Prop where
  isNote : isNote note = true
  visible : next.isBlankText = false
  aligned : indentWidth note = indentWidth next

/-- A stretch of lines, which is `length` long, becomes one longer when a line is put in behind the
first `place` lines, if it goes on behind them, and otherwise stays as it is. -/
def Stretches (place length stretched : Nat) : Prop :=
  length ≤ place ∧ stretched = length ∨ place < length ∧ stretched = length + 1

/-! ## Signatures -/

/-- Blanks and a number sign open no literal. -/
theorem dropLiterals_hash {blanks : Text} (blank : ∀ c ∈ blanks, Text.isBlank c = true)
    (rest : Text) {fuel : Nat} (enough : blanks.length < fuel) :
    ∃ code, dropLiterals fuel (blanks ++ '#' :: rest) = blanks ++ '#' :: code := by
  induction blanks generalizing fuel with
  | nil =>
      obtain ⟨fuel, rfl⟩ := Nat.exists_eq_add_of_lt enough
      exact ⟨_, rfl⟩
  | cons c blanks ih =>
      obtain ⟨here, later⟩ := List.forall_mem_cons.1 blank
      have double : c ≠ '"' := Text.ne_of_isBlank here (by decide)
      have single : c ≠ '\'' := Text.ne_of_isBlank here (by decide)
      cases fuel with
      | zero => exact absurd enough (Nat.not_lt_zero _)
      | succ fuel =>
          obtain ⟨code, dropped⟩ := ih later (Nat.lt_of_succ_lt_succ enough)
          refine ⟨code, ?_⟩
          rw [List.cons_append, dropLiterals, dropped]
          simp [double, single]

/-- A note opens and closes no bracket. -/
theorem bracketBalance_note {note : Text} (isNote : isNote note = true) :
    bracketBalance note = 0 := by
  have blank : ∀ c ∈ note.indentation, Text.isBlank c = true :=
    fun c member => Text.isBlank_of_mem_indentation member
  obtain ⟨rest, parts⟩ := eq_of_isNote isNote
  have enough : note.indentation.length < note.length := by
    have lengths := congrArg List.length parts
    rw [List.length_append, List.length_cons] at lengths
    omega
  obtain ⟨code, dropped⟩ := dropLiterals_hash blank rest enough
  rw [← parts] at dropped
  have code : (dropLiterals note.length note).takeWhile (· != '#') = note.indentation := by
    have noSign : ∀ c ∈ note.indentation, (c != '#') = true :=
      fun c member => bne_iff_ne.2 (Text.ne_of_isBlank (blank c member) (by decide))
    rw [dropped, List.takeWhile_append_of_pos noSign]
    simp
  have noBracket : ∀ brackets : Text, brackets.all (!Text.isBlank ·) = true →
      note.indentation.filter brackets.contains = [] := by
    intro brackets visible
    rw [List.filter_eq_nil_iff]
    intro c member among
    have bracket := List.all_eq_true.1 visible c (List.contains_iff_mem.1 among)
    rw [blank c member] at bracket
    exact nomatch bracket
  have opening := noBracket "([\x7b".toList (by decide)
  have closing := noBracket ")]\x7d".toList (by decide)
  simp only [bracketBalance, code, opening, closing]
  rfl

/-- A note stands in a signature if a bracket is open in front of it. -/
theorem signatureLength_note {note : Text} (isNote : isNote note = true) (next : Text)
    (after : List Text) {front : List Text} {open_ : Int} (begun : front = [] → 0 < open_) :
    Stretches front.length (signatureLength open_ (front ++ next :: after))
      (signatureLength open_ (front ++ note :: next :: after)) := by
  induction front generalizing open_ with
  | nil =>
      have goesOn : ¬open_ ≤ 0 := Int.not_le.2 (begun rfl)
      have counted : 0 < signatureLength open_ (next :: after) := by
        rw [signatureLength]
        split <;> omega
      refine Or.inr ⟨counted, ?_⟩
      rw [List.nil_append, List.nil_append, signatureLength.eq_def open_ (note :: _)]
      simp only [bracketBalance_note isNote, Int.add_zero, goesOn, if_false]
      omega
  | cons line front ih =>
      simp only [List.cons_append, signatureLength, List.length_cons]
      by_cases closed : open_ + bracketBalance line ≤ 0
      · rw [if_pos closed, if_pos closed]
        exact Or.inl ⟨by omega, rfl⟩
      · rw [if_neg closed, if_neg closed]
        have stillOpen : 0 < open_ + bracketBalance line := Int.not_le.1 closed
        have later := ih fun _ : front = [] => stillOpen
        unfold Stretches at later ⊢
        omega

/-! ## Blocks -/

theorem isBlankText_note {note : Text} (isNote : isNote note = true) :
    note.isBlankText = false := by
  obtain ⟨rest, parts⟩ := eq_of_isNote isNote
  rw [parts, Text.isBlankText, List.all_append, List.all_cons]
  simp only [show Text.isBlank '#' = false by decide, Bool.false_and, Bool.and_false]

/-- A note stands in a block if the line below it does. -/
theorem blockLength_note {note next : Text} (above : StandsAbove note next) (indent : Nat)
    (front after : List Text) :
    Stretches front.length (blockLength indent (front ++ next :: after))
      (blockLength indent (front ++ note :: next :: after)) := by
  induction front with
  | nil =>
      simp only [List.nil_append, blockLength, isBlankText_note above.isNote, above.visible,
        above.aligned, Bool.false_eq_true, if_false]
      by_cases out : indentWidth next ≤ indent
      · rw [if_pos out, if_pos out]
        exact Or.inl ⟨Nat.le_refl 0, rfl⟩
      · rw [if_neg out, if_neg out]
        refine Or.inr ⟨by rw [List.length_nil]; omega, by omega⟩
  | cons line front ih =>
      unfold Stretches at ih ⊢
      simp only [List.cons_append, blockLength, List.length_cons]
      cases blank : line.isBlankText with
      | true =>
          simp only [if_true]
          split <;> split <;> omega
      | false =>
          simp only [Bool.false_eq_true, if_false]
          split <;> omega

/-! ## Constructs -/

/-- **A note goes where the line below it goes**, into a construct or not. -/
theorem indentedLength_note {note next : Text} (above : StandsAbove note next) (first : Text)
    (front after : List Text) :
    Stretches (first :: front).length (indentedLength (first :: front ++ next :: after))
      (indentedLength (first :: front ++ note :: next :: after)) := by
  have begun : first :: front = [] → 0 < (0 : Int) := nofun
  have signature := signatureLength_note above.isNote next after begun
  simp only [List.cons_append, indentedLength] at signature ⊢
  simp only [← List.cons_append] at signature ⊢
  rcases signature with ⟨ends, same⟩ | ⟨goesOn, longer⟩
  · -- The signature ends in front of the note, so the note is among the lines of the block.
    have block := blockLength_note above (indentWidth first)
      ((first :: front).drop (signatureLength 0 (first :: front ++ next :: after))) after
    rw [same, List.drop_append_of_le_length ends, List.drop_append_of_le_length ends]
    unfold Stretches at block ⊢
    rw [List.length_drop] at block
    omega
  · -- The signature goes on behind the note, so the block is the same.
    have rest : ∀ behind : Nat,
        (first :: front ++ note :: next :: after).drop
            ((first :: front).length + (behind + 1)) =
          (first :: front ++ next :: after).drop ((first :: front).length + behind) := by
      intro behind
      rw [List.drop_length_add_append, List.drop_length_add_append, List.drop_succ_cons]
    obtain ⟨behind, reach⟩ := Nat.exists_eq_add_of_le (Nat.le_of_lt goesOn)
    refine Or.inr ⟨by omega, ?_⟩
    rw [longer, reach, Nat.add_assoc (first :: front).length, rest]
    omega

end Traceability
