/-
# Traceability.Proofs.Patch.Counts -- a hunk and the counts of its header

A line is read into a hunk as long as one of the two counts of the header asks
for more (`readBody_asked`).  A line that changes the file beyond that is surplus,
and a hunk with such a surplus is not placed.

One count may be used up while the other still asks for lines.  Then a line that
is counted for the first of them is read all the same: it overruns the count
(`HunkRange.Overrun`).  The sides of a hunk that is placed fit its counts exactly
when no line of it does that (`sides_fit_iff_no_overrun`), and one of the two
fits in any case.
-/
import Traceability.Proofs.Patch.Concatenation
import Traceability.Proofs.Patch.LineEnds
import Traceability.Proofs.Patch.Placement

namespace Traceability

set_option autoImplicit false

/-! ## Counts that are open, and lines that overrun them -/

namespace HunkRange

/-- After these lines the header asks for more lines of the old file. -/
def OldOpen (range : HunkRange) (lines : List Text) : Prop :=
  lines.countP (!Hunk.hasMark '+' ·) < range.oldCount

/-- After these lines the header asks for more lines of the new file. -/
def NewOpen (range : HunkRange) (lines : List Text) : Prop :=
  lines.countP (!Hunk.hasMark '-' ·) < range.newCount

/-- One of the lines is counted for a file of which the header asks for no more lines, while it does
ask for lines of the other file. -/
def Overrun (range : HunkRange) (lines : List Text) : Prop :=
  ∃ before line after, lines = before ++ line :: after ∧
    (Hunk.hasMark '+' line = false ∧ ¬range.OldOpen before ∧ range.NewOpen before ∨
      Hunk.hasMark '-' line = false ∧ ¬range.NewOpen before ∧ range.OldOpen before)

/-- Each of the lines is asked for, by the one count or the other. -/
def AsksFor (range : HunkRange) (lines : List Text) : Prop :=
  ∀ before line after, lines = before ++ line :: after →
    range.OldOpen before ∨ range.NewOpen before

end HunkRange

theorem Hunk.length_oldSide (hunk : Hunk) :
    hunk.oldSide.length = hunk.lines.countP (!hasMark '+' ·) := by
  rw [oldSide, List.length_map, List.countP_eq_length_filter]

theorem Hunk.length_newSide (hunk : Hunk) :
    hunk.newSide.length = hunk.lines.countP (!hasMark '-' ·) := by
  rw [newSide, List.length_map, List.countP_eq_length_filter]

/-- Where more lines than a number satisfy a test, one of them comes after exactly that many. -/
theorem exists_split_of_lt_countP {test : Text → Bool} {number : Nat} {lines : List Text}
    (more : number < lines.countP test) :
    ∃ before line after, lines = before ++ line :: after ∧ test line = true ∧
      before.countP test = number := by
  induction lines generalizing number with
  | nil => exact absurd more (Nat.not_lt_zero number)
  | cons first rest ih =>
      rw [List.countP_cons] at more
      by_cases counted : test first = true
      · rw [if_pos counted] at more
        cases number with
        | zero => exact ⟨[], first, rest, rfl, counted, rfl⟩
        | succ number =>
            obtain ⟨before, line, after, rfl, here, count⟩ := ih (Nat.lt_of_succ_lt_succ more)
            refine ⟨first :: before, line, after, rfl, here, ?_⟩
            rw [List.countP_cons, if_pos counted, count]
      · rw [if_neg counted] at more
        obtain ⟨before, line, after, rfl, here, count⟩ := ih more
        refine ⟨first :: before, line, after, rfl, here, ?_⟩
        rw [List.countP_cons, if_neg counted, count]
        rfl

namespace HunkRange

variable {range : HunkRange} {lines : List Text}

/-- Lines that are asked for are too many for a count only if one of them overruns it. -/
theorem AsksFor.fits_iff (asked : range.AsksFor lines) :
    (lines.countP (!Hunk.hasMark '+' ·) ≤ range.oldCount ∧
        lines.countP (!Hunk.hasMark '-' ·) ≤ range.newCount) ↔
      ¬range.Overrun lines := by
  constructor
  · rintro ⟨oldFits, newFits⟩ ⟨before, line, after, rfl, overrun⟩
    simp only [List.countP_append, List.countP_cons] at oldFits newFits
    rcases overrun with ⟨noPlus, usedUp, -⟩ | ⟨noMinus, usedUp, -⟩
    · simp only [noPlus, Bool.not_false, if_true] at oldFits
      exact usedUp (by unfold OldOpen; omega)
    · simp only [noMinus, Bool.not_false, if_true] at newFits
      exact usedUp (by unfold NewOpen; omega)
  · intro none_overruns
    by_contra exceeds
    rw [not_and_or, Nat.not_le, Nat.not_le] at exceeds
    -- The line that exceeds a count comes where that count is just used up.
    rcases exceeds with oldMore | newMore
    · obtain ⟨before, line, after, split_, noPlus, count⟩ := exists_split_of_lt_countP oldMore
      have usedUp : ¬range.OldOpen before := by unfold OldOpen; omega
      have open_ := (asked before line after split_).resolve_left usedUp
      rw [Bool.not_eq_true'] at noPlus
      exact none_overruns ⟨before, line, after, split_, Or.inl ⟨noPlus, usedUp, open_⟩⟩
    · obtain ⟨before, line, after, split_, noMinus, count⟩ := exists_split_of_lt_countP newMore
      have usedUp : ¬range.NewOpen before := by unfold NewOpen; omega
      have open_ := (asked before line after split_).resolve_right usedUp
      rw [Bool.not_eq_true'] at noMinus
      exact none_overruns ⟨before, line, after, split_, Or.inr ⟨noMinus, usedUp, open_⟩⟩

/-- Lines that are asked for are never too many for both counts. -/
theorem AsksFor.fits_one (asked : range.AsksFor lines) :
    lines.countP (!Hunk.hasMark '+' ·) ≤ range.oldCount ∨
      lines.countP (!Hunk.hasMark '-' ·) ≤ range.newCount := by
  rcases List.eq_nil_or_concat lines with rfl | ⟨front, last, rfl⟩
  · exact Or.inl (Nat.zero_le _)
  · -- Without the last line one of the counts was open.
    have oldLast := List.countP_le_length (p := (!Hunk.hasMark '+' ·)) (l := [last])
    have newLast := List.countP_le_length (p := (!Hunk.hasMark '-' ·)) (l := [last])
    rw [List.concat_eq_append] at asked ⊢
    rw [List.countP_append, List.countP_append]
    rcases asked front last [] rfl with oldOpen | newOpen
    · unfold OldOpen at oldOpen
      simp only [List.length_singleton] at oldLast
      exact Or.inl (by omega)
    · unfold NewOpen at newOpen
      simp only [List.length_singleton] at newLast
      exact Or.inr (by omega)

end HunkRange

/-! ## Hunks of a patch -/

/-- **A line is read as long as one of the counts asks for it.** -/
theorem readBody_asked {sectionFollows : Bool} {old new : Nat} {rows before after : List Text}
    {line : Text} (read : (readBody sectionFollows old new rows).1 = before ++ line :: after) :
    before.countP (!Hunk.hasMark '+' ·) < old ∨ before.countP (!Hunk.hasMark '-' ·) < new := by
  induction rows generalizing old new before with
  | nil => simp [readBody] at read
  | cons row rows ih =>
      cases remark : Hunk.hasMark '\\' row with
      | true =>
          rw [readBody_remark remark] at read
          exact ih read
      | false =>
          by_cases counted : 0 < old ∨ 0 < new
          · rw [readBody_counted remark counted] at read
            cases before with
            | nil => exact counted
            | cons first before =>
                obtain ⟨rfl, later⟩ := List.cons.inj read
                have more := ih later
                have used := takeCounts_le_iff row before old new
                omega
          · obtain ⟨rfl, rfl⟩ : old = 0 ∧ new = 0 := by omega
            rw [readBody_zero_fst] at read
            simp at read

/-- The lines of a hunk that is read from a patch are asked for by its header. -/
theorem asksFor_of_mem_readPatch {patch : Text} {section_ : FilePatch} {hunk : Hunk}
    {range : HunkRange} (inPatch : section_ ∈ readPatch patch) (inSection : hunk ∈ section_.hunks)
    (ranged : hunk.range = some range) : range.AsksFor hunk.lines := by
  obtain ⟨part, -, follows, hunks⟩ := exists_part_of_mem_readSections inPatch
  rw [hunks] at inSection
  obtain ⟨inner, -, last, rfl⟩ := exists_part_of_mem_readHunks inSection
  intro before line after split_
  unfold Hunk.ofLines at ranged split_
  cases anchored : HunkRange.ofHeader? inner.1 with
  | none =>
      rw [anchored] at ranged
      cases ranged
  | some found =>
      rw [anchored] at ranged split_
      cases ranged
      exact readBody_asked split_

/-- **The sides of a hunk that is placed fit the counts of its header exactly when none of its lines
overruns one of them while the other is open.**  One of the sides fits in any case, and no line
beyond the lines of the hunk changes the file or describes it. -/
theorem sides_fit_iff_no_overrun {patch content result : Text} {path : String}
    {section_ : FilePatch} (inPatch : section_ ∈ readPatch patch)
    (applied : applyAnchored path content section_.hunks = .ok result) :
    ∀ hunk ∈ section_.hunks, ∀ range, hunk.range = some range →
      ((hunk.oldSide.length ≤ range.oldCount ∧ hunk.newSide.length ≤ range.newCount) ↔
          ¬range.Overrun hunk.lines) ∧
        (hunk.oldSide.length ≤ range.oldCount ∨ hunk.newSide.length ≤ range.newCount) ∧
        ∀ line ∈ hunk.surplus, Hunk.isBodyLine line = false := by
  intro hunk inSection range ranged
  have asked := asksFor_of_mem_readPatch inPatch inSection ranged
  obtain ⟨file, placed, -⟩ := applyAnchored_eq_ok_iff.1 applied
  have settled := Placement.hasSurplusChanges_of_placeAll placed inSection
  rw [Hunk.length_oldSide, Hunk.length_newSide]
  refine ⟨asked.fits_iff, asked.fits_one, fun line beyond => ?_⟩
  have unmarked := List.any_eq_false.1 settled line beyond
  simp only [Bool.not_eq_true, Bool.or_eq_false_iff] at unmarked
  obtain ⟨⟨noPlus, noMinus⟩, noSpace⟩ := unmarked
  simp only [Hunk.isBodyLine, noPlus, noMinus, noSpace, Bool.or_self]

/-- A section with a hunk that keeps a line and changes the one below it. -/
def keptSection : FilePatch :=
  ⟨"f", [⟨"@@ -1,2 +1,2 @@".toList, some ⟨1, 2, 1, 2⟩, [" a".toList, "-b".toList, "+c".toList], []⟩]⟩

/-- The lines of a hunk that counts its lines rightly overrun no count. -/
theorem no_overrun_kept :
    keptSection ∈ readPatch "+++ b/f\n@@ -1,2 +1,2 @@\n a\n-b\n+c\n".toList ∧
      applyAnchored "f" "a\nb\n".toList keptSection.hunks = .ok "a\nc\n".toList ∧
      ¬HunkRange.Overrun ⟨1, 2, 1, 2⟩ [" a".toList, "-b".toList, "+c".toList] := by
  have inPatch : keptSection ∈ readPatch "+++ b/f\n@@ -1,2 +1,2 @@\n a\n-b\n+c\n".toList := by
    decide +kernel
  have applied : applyAnchored "f" "a\nb\n".toList keptSection.hunks = .ok "a\nc\n".toList := rfl
  have fits := (sides_fit_iff_no_overrun inPatch applied _ List.mem_cons_self _ rfl).1
  exact ⟨inPatch, applied, fits.1 (by decide)⟩

/-- A section with a hunk that takes away two lines, although by its header it takes away one. -/
def overrunSection : FilePatch :=
  ⟨"f", [⟨"@@ -1 +1,2 @@".toList, some ⟨1, 1, 1, 2⟩,
    ["-a".toList, "-b".toList, "+x".toList, "+y".toList], []⟩]⟩

/-- A hunk can be placed although its old side has more lines than its header says: the second line
that it takes away overruns the count of the old file, while that of the new file is open. -/
theorem overrun_is_placed :
    ¬∀ (patch content result : Text) (path : String) (section_ : FilePatch),
      section_ ∈ readPatch patch → applyAnchored path content section_.hunks = .ok result →
        ∀ hunk ∈ section_.hunks, ∀ range, hunk.range = some range →
          hunk.oldSide.length ≤ range.oldCount ∧ hunk.newSide.length ≤ range.newCount := by
  intro fits
  have inPatch : overrunSection ∈ readPatch "+++ b/f\n@@ -1 +1,2 @@\n-a\n-b\n+x\n+y\n".toList := by
    decide +kernel
  have applied : applyAnchored "f" "a\nb\nc\n".toList overrunSection.hunks =
      .ok "x\ny\nc\n".toList := rfl
  have side := (fits _ _ _ _ _ inPatch applied _ List.mem_cons_self _ rfl).1
  exact absurd side (by decide)

end Traceability
