/-
# Traceability.Proofs.Patch.LineEnds -- a patch brings in no carriage returns

Every line of a hunk that is read from a text is a line of that text
(`mem_lines_of_mem_body`).  So when neither a file nor a patch has carriage
returns, the patched file has none (`not_mem_applyHunks`), whichever way the
hunks are placed: a carriage return is added only to the lines of files that
have one at the end of their first line.
-/
import Traceability.Patch.Apply
import Traceability.Patch.Reader
import Traceability.Proofs.Text.Lines

namespace Traceability

set_option autoImplicit false

/-! ## Lines of a hunk are lines of the patch -/

theorem mem_of_mem_dropBlankEnd {line : Text} {lines : List Text}
    (member : line ∈ Text.dropBlankEnd lines) : line ∈ lines := by
  rw [Text.dropBlankEnd, List.mem_reverse] at member
  exact List.mem_reverse.1 ((List.dropWhile_sublist _).subset member)

theorem mem_of_mem_readBody {sectionFollows : Bool} {line : Text} {body : List Text}
    (old new : Nat) (member : line ∈ (readBody sectionFollows old new body).1 ∨
      line ∈ (readBody sectionFollows old new body).2) : line ∈ body := by
  -- The counts change from line to line, so the induction is for all of them.
  induction body generalizing old new with
  | nil => simp [readBody] at member
  | cons first rest ih =>
      rw [List.mem_cons]
      rw [readBody] at member
      split at member
      · exact Or.inr (ih old new member)
      · split at member
        · simp only [List.mem_cons, or_assoc] at member
          exact member.imp_right (ih _ _)
        · split at member
          · exact Or.inr (ih 0 0 member)
          · split at member
            · simp at member
            · simp only [List.mem_cons, or_left_comm] at member
              exact member.imp_right (ih 0 0)

theorem mem_of_mem_ofLines {sectionFollows : Bool} {header line : Text} {body : List Text}
    (member : line ∈ (Hunk.ofLines sectionFollows header body).body) : line ∈ body := by
  unfold Hunk.ofLines at member
  split at member
  · rw [Hunk.body, List.mem_append] at member
    exact mem_of_mem_readBody _ _ (member.imp_right mem_of_mem_dropBlankEnd)
  · rw [Hunk.body, List.append_nil] at member
    exact mem_of_mem_readBody 0 0 (Or.inr (mem_of_mem_dropBlankEnd member))

theorem mem_of_mem_cutAt {opens : Text → Bool} {line : Text} {lines : List Text}
    (member : line ∈ (cutAt opens lines).1 ∨
      ∃ part ∈ (cutAt opens lines).2, line ∈ part.2) : line ∈ lines := by
  induction lines with
  | nil => simp [cutAt] at member
  | cons first rest ih =>
      rw [List.mem_cons]
      by_cases here : opens first = true
      · simp only [cutAt, here, if_true, List.not_mem_nil, false_or, List.mem_cons,
          exists_eq_or_imp] at member
        exact Or.inr (ih member)
      · simp only [cutAt, here, if_false, Bool.false_eq_true, List.mem_cons, or_assoc] at member
        exact member.imp_right ih

theorem exists_part_of_mem_readHunks {sectionFollows : Bool} {hunk : Hunk}
    {parts : List (Text × List Text)} (member : hunk ∈ readHunks sectionFollows parts) :
    ∃ part ∈ parts, ∃ follows, hunk = Hunk.ofLines follows part.1 part.2 := by
  induction parts with
  | nil => exact absurd member List.not_mem_nil
  | cons part rest ih =>
      cases rest with
      | nil =>
          rw [readHunks, List.mem_singleton] at member
          exact ⟨part, List.mem_cons_self, sectionFollows, member⟩
      | cons next others =>
          rw [readHunks, List.mem_cons] at member
          · rcases member with here | later
            · exact ⟨part, List.mem_cons_self, false, here⟩
            · obtain ⟨other, among, found⟩ := ih later
              exact ⟨other, List.mem_cons_of_mem _ among, found⟩
          · simp

theorem exists_part_of_mem_readSections {section_ : FilePatch} {parts : List (Text × List Text)}
    (member : section_ ∈ readSections parts) :
    ∃ part ∈ parts, ∃ follows,
      section_.hunks = readHunks follows (cutAt (·.startsWith hunkMark) part.2).2 := by
  induction parts with
  | nil => exact absurd member List.not_mem_nil
  | cons part rest ih =>
      rw [readSections, List.mem_cons] at member
      rcases member with rfl | later
      · exact ⟨part, List.mem_cons_self, !rest.isEmpty, rfl⟩
      · obtain ⟨other, among, found⟩ := ih later
        exact ⟨other, List.mem_cons_of_mem _ among, found⟩

/-- **A line of a hunk is a line of the patch that the hunk was read from.** -/
theorem mem_lines_of_mem_body {patch line : Text} {section_ : FilePatch} {hunk : Hunk}
    (inPatch : section_ ∈ readPatch patch) (inSection : hunk ∈ section_.hunks)
    (inHunk : line ∈ hunk.body) : line ∈ patch.lines := by
  obtain ⟨part, among, follows, hunks⟩ := exists_part_of_mem_readSections inPatch
  rw [hunks] at inSection
  obtain ⟨inner, within, last, rfl⟩ := exists_part_of_mem_readHunks inSection
  have inPart : line ∈ part.2 :=
    mem_of_mem_cutAt (Or.inr ⟨inner, within, mem_of_mem_ofLines inHunk⟩)
  exact mem_of_mem_cutAt (Or.inr ⟨part, among, inPart⟩)

/-! ## Carriage returns -/

theorem Text.dropReturns_append_return (line : Text) :
    Text.dropReturns (line ++ ['\r']) = Text.dropReturns line := by
  simp [Text.dropReturns, Text.dropEndWhile]

theorem dropReturns_withReturn (line : Text) :
    Text.dropReturns (withReturn line) = Text.dropReturns line := by
  unfold withReturn
  split
  · rfl
  · exact Text.dropReturns_append_return line

theorem usesReturns_of_not_mem {lines : List Text} (free : ∀ line ∈ lines, '\r' ∉ line) :
    usesReturns lines = false := by
  cases lines with
  | nil => rfl
  | cons line rest =>
      rw [usesReturns, List.head?_cons, Option.map_some, Option.getD_some, ← Bool.not_eq_true,
        Text.endsWith_singleton]
      exact fun last => free line List.mem_cons_self (List.mem_of_getLast? last)

theorem mem_lines_of_mem_fileLines {content line : Text} (member : line ∈ fileLines content) :
    line ∈ content.lines := by
  have within : ∀ lines : List Text, line ∈ (if lines = [[]] then [] else lines) → line ∈ lines := by
    intro lines member
    split at member
    · exact absurd member List.not_mem_nil
    · exact member
  simp only [fileLines] at member
  split at member
  · exact (List.dropLast_prefix _).subset (within _ member)
  · exact within _ member

theorem not_mem_of_mem_fileLines {c : Char} {content line : Text} (free : c ∉ content)
    (member : line ∈ fileLines content) : c ∉ line :=
  fun inside => free (Text.mem_of_mem_split (mem_lines_of_mem_fileLines member) inside)

theorem usesReturns_fileLines {content : Text} (free : '\r' ∉ content) :
    usesReturns (fileLines content) = false :=
  usesReturns_of_not_mem fun _ member => not_mem_of_mem_fileLines free member

theorem mem_replaceFirst {c : Char} {needle replacement text : Text}
    (member : c ∈ Text.replaceFirst needle replacement text) : c ∈ replacement ∨ c ∈ text := by
  induction text with
  | nil =>
      rw [Text.replaceFirst] at member
      split at member
      · exact Or.inl member
      · exact Or.inr member
  | cons d rest ih =>
      rw [Text.replaceFirst] at member
      split at member
      · exact (List.mem_append.1 member).imp_right List.mem_of_mem_drop
      · rcases List.mem_cons.1 member with rfl | later
        · exact Or.inr List.mem_cons_self
        · exact (ih later).imp_right (List.mem_cons_of_mem d)

theorem not_mem_unlines {lines : List Text} (free : ∀ line ∈ lines, '\r' ∉ line) :
    '\r' ∉ Text.unlines lines := by
  intro member
  rcases Text.mem_joinWith member with feed | ⟨line, among, inside⟩
  · exact absurd feed (by decide)
  · exact free line among inside

/-- No line of the hunk has a carriage return. -/
def Hunk.HasNoReturns (hunk : Hunk) : Prop := ∀ line ∈ hunk.body, '\r' ∉ line

instance (hunk : Hunk) : Decidable hunk.HasNoReturns :=
  inferInstanceAs (Decidable (∀ line ∈ hunk.body, '\r' ∉ line))

/-! ### What no line of a hunk contains is not put into a file -/

namespace Hunk

variable {hunk : Hunk} {c : Char} (free : ∀ line ∈ hunk.body, c ∉ line)
include free

theorem newSide_free : ∀ line ∈ hunk.newSide, c ∉ line := by
  intro line member inside
  obtain ⟨row, among, rfl⟩ := List.mem_map.1 member
  have inBody : row ∈ hunk.body := List.mem_append_left _ (List.mem_filter.1 among).1
  exact free row inBody (List.mem_of_mem_drop inside)

theorem addedLines_free : ∀ line ∈ hunk.addedLines, c ∉ line := by
  intro line member inside
  obtain ⟨row, among, rfl⟩ := List.mem_map.1 member
  exact free row (List.mem_filter.1 among).1 (List.mem_of_mem_drop inside)

end Hunk

theorem place_free {c : Char} {file next : Placement} {hunk : Hunk}
    (hunkFree : ∀ line ∈ hunk.body, c ∉ line) (free : ∀ line ∈ file.lines, c ∉ line)
    (placed : file.place false hunk = .ok next) : ∀ line ∈ next.lines, c ∉ line := by
  simp only [Placement.place] at placed
  split at placed
  · cases placed
  · split at placed
    · cases placed
    · cases placed
      intro line member
      rw [List.mem_append, List.mem_append] at member
      rcases member with (before | new) | after
      · exact free line (List.mem_of_mem_take before)
      · exact Hunk.newSide_free hunkFree line new
      · exact free line (List.mem_of_mem_drop after)

theorem placeAll_free {c : Char} {path : String} {number : Nat} {file last : Placement}
    {hunks : List Hunk} (hunksFree : ∀ hunk ∈ hunks, ∀ line ∈ hunk.body, c ∉ line)
    (free : ∀ line ∈ file.lines, c ∉ line)
    (placed : Placement.placeAll false path number file hunks = .ok last) :
    ∀ line ∈ last.lines, c ∉ line := by
  induction hunks generalizing number file with
  | nil =>
      cases placed
      exact free
  | cons hunk rest ih =>
      obtain ⟨here, later⟩ := List.forall_mem_cons.1 hunksFree
      rw [Placement.placeAll] at placed
      split at placed
      · cases placed
      · rename_i next step
        exact ih later (place_free here free step) placed

/-! ### Whole texts -/

theorem not_mem_applyAnchored {path : String} {content patched : Text} {hunks : List Hunk}
    (hunksFree : ∀ hunk ∈ hunks, hunk.HasNoReturns) (free : '\r' ∉ content)
    (applied : applyAnchored path content hunks = .ok patched) : '\r' ∉ patched := by
  have lines : ∀ line ∈ fileLines content, '\r' ∉ line :=
    fun line => not_mem_of_mem_fileLines free
  simp only [applyAnchored, usesReturns_fileLines free] at applied
  cases placed : Placement.placeAll false path 0 ⟨fileLines content, 0⟩ hunks with
  | error conflict =>
      rw [placed] at applied
      cases applied
  | ok file =>
      rw [placed] at applied
      have text := not_mem_unlines (placeAll_free hunksFree lines placed)
      cases applied
      split
      · simpa using text
      · exact text

theorem not_mem_substituteHunk {content : Text} {hunk : Hunk} (hunkFree : hunk.HasNoReturns)
    (free : '\r' ∉ content) : '\r' ∉ substituteHunk content hunk := by
  have added := not_mem_unlines (Hunk.addedLines_free hunkFree)
  simp only [substituteHunk]
  split
  · split
    · exact free
    · simp [free, added]
  · intro member
    exact (mem_replaceFirst member).elim added free

/-- **Hunks without carriage returns leave a text without carriage returns without them.** -/
theorem not_mem_applyHunks {mode : PatchMode} {path : String} {content patched : Text}
    {hunks : List Hunk} (hunksFree : ∀ hunk ∈ hunks, hunk.HasNoReturns) (free : '\r' ∉ content)
    (applied : applyHunks mode path content hunks = .ok patched) : '\r' ∉ patched := by
  cases mode with
  | anchored => exact not_mem_applyAnchored hunksFree free applied
  | substring =>
      cases applied
      rw [applySubstring]
      induction hunks generalizing content with
      | nil => exact free
      | cons hunk rest ih =>
          obtain ⟨here, later⟩ := List.forall_mem_cons.1 hunksFree
          exact ih later (not_mem_substituteHunk here free)

/-- The hunks of a patch without carriage returns have none. -/
theorem hasNoReturns_of_mem {patch : Text} (free : '\r' ∉ patch) {section_ : FilePatch}
    (inPatch : section_ ∈ readPatch patch) : ∀ hunk ∈ section_.hunks, hunk.HasNoReturns :=
  fun _ inSection _ inHunk inside =>
    free (Text.mem_of_mem_split (mem_lines_of_mem_body inPatch inSection inHunk) inside)

end Traceability
