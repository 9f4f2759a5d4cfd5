/-
# Traceability.Proofs.Patch.Conservation -- anchored placement loses no line

Wherever a hunk lands, it takes away its old side and puts its new side there.
The lines that it only keeps are on both sides, so what a file gains is what the
hunk adds, and what it loses is what the hunk removes.

Lines are counted in a bag (`lineBag`), up to the carriage returns at their ends,
because this is how a hunk is compared with a file.  `place_lineBag` is the
account of one hunk and `placeAll_lineBag` that of a run, whatever the headers
say and wherever the hunks are found.
-/
import Mathlib.Algebra.Order.Group.Multiset
import Mathlib.Tactic.Abel
import Traceability.Proofs.Patch.Placement

namespace Traceability

set_option autoImplicit false

/-! ## Bags of lines -/

/-- The lines of a list, each as often as it stands there, up to carriage returns at their ends. -/
def lineBag (lines : List Text) : Multiset Text := ↑(lines.map Text.dropReturns)

@[simp] theorem lineBag_append (first second : List Text) :
    lineBag (first ++ second) = lineBag first + lineBag second := by
  simp [lineBag]

@[simp] theorem card_lineBag (lines : List Text) : (lineBag lines).card = lines.length := by
  simp [lineBag]

theorem lineBag_of_perm {first second : List Text} (perm : first.Perm second) :
    lineBag first = lineBag second :=
  Multiset.coe_eq_coe.2 (perm.map Text.dropReturns)

/-- Carriage returns that are added do not count. -/
theorem lineBag_map_withReturn (lines : List Text) :
    lineBag (lines.map withReturn) = lineBag lines := by
  have same : Text.dropReturns ∘ withReturn = Text.dropReturns := funext dropReturns_withReturn
  simp [lineBag, same]

/-- A block that stands among some lines is what they are without the lines before and after it. -/
theorem lineBag_of_occursAt {lines block : List Text} {place : Nat}
    (stands : OccursAt lines block place) :
    lineBag lines =
      lineBag (lines.take place) + lineBag block + lineBag (lines.drop (place + block.length)) := by
  obtain ⟨rest, follows⟩ := stands.2
  have after : rest = (lines.drop (place + block.length)).map Text.dropReturns := by
    have cut := congrArg (List.drop block.length) follows
    rw [← List.map_drop, List.drop_drop] at cut
    simpa using cut
  have here : lineBag (lines.drop place) =
      lineBag block + lineBag (lines.drop (place + block.length)) := by
    rw [lineBag, ← follows, after]
    rfl
  calc lineBag lines = lineBag (lines.take place ++ lines.drop place) := by
        rw [List.take_append_drop]
    _ = _ := by rw [lineBag_append, here, add_assoc]

/-! ## The two sides of a hunk -/

namespace Hunk

/-- The lines that a hunk keeps. -/
def contextLines (hunk : Hunk) : List Text :=
  (hunk.lines.filter fun line => !hasMark '+' line && !hasMark '-' line).map (·.drop 1)

/-- A line with a mark is not among the lines beyond the counts, if those change nothing. -/
theorem filter_surplus_eq_nil {hunk : Hunk} (settled : hunk.hasSurplusChanges = false) {mark : Char}
    (changes : mark = '+' ∨ mark = '-') : hunk.surplus.filter (hasMark mark) = [] := by
  rw [List.filter_eq_nil_iff]
  intro line member marked
  have unmarked := List.any_eq_false.1 settled line member
  rcases changes with rfl | rfl <;> simp [marked] at unmarked

/-- The lines without a mark are those without it and another, and those with the other. -/
theorem filter_unmarked_perm {mark other : Char} (ne : mark ≠ other) (lines : List Text) :
    (lines.filter (!hasMark mark ·)).Perm
      (lines.filter (fun line => !hasMark mark line && !hasMark other line) ++
        lines.filter (hasMark other)) := by
  induction lines with
  | nil => exact List.Perm.refl _
  | cons line rest ih =>
      by_cases marked : hasMark mark line = true
      · have notOther := hasMark_unique other ne marked
        simpa [marked, notOther] using ih
      · by_cases others : hasMark other line = true
        · simpa [marked, others] using (ih.cons line).trans List.perm_middle.symm
        · simpa [marked, others] using ih

/-- The old side is what the hunk keeps and what it removes. -/
theorem lineBag_oldSide {hunk : Hunk} (settled : hunk.hasSurplusChanges = false) :
    lineBag hunk.oldSide = lineBag hunk.contextLines + lineBag hunk.removedLines := by
  have removed : hunk.removedLines = (hunk.lines.filter (hasMark '-')).map (·.drop 1) := by
    rw [removedLines, body, List.filter_append, filter_surplus_eq_nil settled (.inr rfl),
      List.append_nil]
  rw [removed, ← lineBag_append, contextLines, oldSide, ← List.map_append]
  apply lineBag_of_perm
  exact (filter_unmarked_perm (by decide) hunk.lines).map _

/-- The new side is what the hunk keeps and what it adds. -/
theorem lineBag_newSide {hunk : Hunk} (settled : hunk.hasSurplusChanges = false) :
    lineBag hunk.newSide = lineBag hunk.contextLines + lineBag hunk.addedLines := by
  have added : hunk.addedLines = (hunk.lines.filter (hasMark '+')).map (·.drop 1) := by
    rw [addedLines, body, List.filter_append, filter_surplus_eq_nil settled (.inl rfl),
      List.append_nil]
  rw [added, ← lineBag_append, contextLines, newSide, ← List.map_append]
  apply lineBag_of_perm
  simp only [Bool.and_comm (!hasMark '+' _)]
  exact (filter_unmarked_perm (by decide) hunk.lines).map _

end Hunk

/-! ## One hunk, and a run -/

/-- **What one hunk does to the bag of a file**, wherever it is found. -/
theorem place_lineBag {returns : Bool} {file next : Placement} {hunk : Hunk}
    (placed : file.place returns hunk = .ok next) :
    lineBag next.lines + lineBag hunk.removedLines =
      lineBag file.lines + lineBag hunk.addedLines := by
  obtain ⟨settled, position, found, spliced⟩ := Placement.place_eq_ok placed
  have written : lineBag (Placement.linesOf returns hunk) = lineBag hunk.newSide := by
    unfold Placement.linesOf
    split
    · exact lineBag_map_withReturn hunk.newSide
    · rfl
  rw [spliced, Placement.splice, lineBag_of_occursAt (occursAt_of_locate found),
    Hunk.lineBag_oldSide settled, lineBag_append, lineBag_append, written,
    Hunk.lineBag_newSide settled]
  abel

/-- What a run of hunks does to the bag of a file: the sum of what each hunk does. -/
theorem placeAll_lineBag {returns : Bool} {path : String} {number : Nat} {file last : Placement}
    {hunks : List Hunk} (placed : Placement.placeAll returns path number file hunks = .ok last) :
    lineBag last.lines + lineBag (hunks.flatMap Hunk.removedLines) =
      lineBag file.lines + lineBag (hunks.flatMap Hunk.addedLines) := by
  induction hunks generalizing number file with
  | nil =>
      cases placed
      rfl
  | cons hunk rest ih =>
      obtain ⟨next, step, placed⟩ := Placement.placeAll_cons_eq_ok_iff.1 placed
      have here := place_lineBag step
      have later := ih placed
      simp only [List.flatMap_cons, lineBag_append]
      calc lineBag last.lines +
            (lineBag hunk.removedLines + lineBag (rest.flatMap Hunk.removedLines))
          = lineBag last.lines + lineBag (rest.flatMap Hunk.removedLines) +
              lineBag hunk.removedLines := by abel
        _ = lineBag next.lines + lineBag hunk.removedLines +
              lineBag (rest.flatMap Hunk.addedLines) := by rw [later]; abel
        _ = lineBag file.lines +
              (lineBag hunk.addedLines + lineBag (rest.flatMap Hunk.addedLines)) := by
            rw [here]; abel

/-- **Anchored placement neither loses nor duplicates lines.**  When it succeeds, whatever the hunks
and wherever they are found, the lines of the new file and those that the hunks remove are the lines
of the old file and those that the hunks add, each as often; so the numbers of lines agree too. -/
theorem applyAnchored_conserves {path : String} {content result : Text} {hunks : List Hunk}
    (applied : applyAnchored path content hunks = .ok result) :
    ∃ file, Placement.placeAll (usesReturns (fileLines content)) path 0 ⟨fileLines content, 0⟩
          hunks = .ok file ∧
      result = fileText (content.endsWith ['\n']) file.lines ∧
      lineBag file.lines + lineBag (hunks.flatMap Hunk.removedLines) =
        lineBag (fileLines content) + lineBag (hunks.flatMap Hunk.addedLines) ∧
      file.lines.length + (hunks.flatMap Hunk.removedLines).length =
        (fileLines content).length + (hunks.flatMap Hunk.addedLines).length := by
  obtain ⟨file, placed, joined⟩ := applyAnchored_eq_ok_iff.1 applied
  have account := placeAll_lineBag placed
  refine ⟨file, placed, joined, account, ?_⟩
  simpa using congrArg Multiset.card account

/-- A hunk far from the place its header gives, which keeps a line and changes another. -/
def movedHunk : Hunk :=
  ⟨"@@ -9,2 +9,2 @@".toList, some ⟨9, 2, 9, 2⟩, [" b".toList, "-c".toList, "+d".toList], []⟩

/-- A hunk without line ranges that adds a line at the end. -/
def bareHunk : Hunk := ⟨"@@".toList, none, ["+e".toList], []⟩

/-- The account of the two hunks on a file whose lines end in carriage returns, which the lines of
the hunks do not. -/
theorem applyAnchored_conserves_moved :
    ∃ file : Placement, fileText true file.lines = "a\r\nb\r\nd\r\ne\r\n".toList ∧
      lineBag file.lines + lineBag [['c']] =
        lineBag [['a', '\r'], ['b', '\r'], ['c', '\r']] + lineBag [['d'], ['e']] ∧
      file.lines.length + 1 = 3 + 2 := by
  have applied : applyAnchored "f" "a\r\nb\r\nc\r\n".toList [movedHunk, bareHunk] =
      .ok "a\r\nb\r\nd\r\ne\r\n".toList := by decide +kernel
  obtain ⟨file, -, joined, account, count⟩ := applyAnchored_conserves applied
  exact ⟨file, joined.symm, account, count⟩

end Traceability
