/-
# Traceability.Proofs.Patch.Returns -- hunks on a file whose lines end in carriage returns

A hunk is compared with a file up to carriage returns, and the lines it puts in
get one where the lines of the file have one.  So a run on a file whose lines all
end in a carriage return mirrors the run on the file without them: every hunk is
found at the same place (`locate_map_withReturn`), and each step keeps the two
files alike but for the carriage returns (`Placement.place_withReturns`).

For whole texts it follows that carriage returns may be put in front of all line
feeds before or after hunks are placed (`applyAnchored_putReturns`).  Only a file
that loses its last line is different: what is left of it is a single line feed
either way.
-/
import Traceability.Proofs.Patch.Matching

namespace Traceability

set_option autoImplicit false

/-! ## Texts and lines with carriage returns -/

namespace Text

/-- The text with a carriage return put in front of every line feed. -/
def putReturns (text : Text) : Text :=
  text.flatMap fun c => if c = '\n' then ['\r', '\n'] else [c]

theorem putReturns_append (first second : Text) :
    putReturns (first ++ second) = putReturns first ++ putReturns second :=
  List.flatMap_append

theorem putReturns_of_not_mem {text : Text} (free : '\n' ∉ text) : putReturns text = text := by
  induction text with
  | nil => rfl
  | cons c rest ih =>
      rw [List.mem_cons, not_or] at free
      have later : putReturns rest = rest := ih free.2
      rw [putReturns, List.flatMap_cons, if_neg (Ne.symm free.1), ← putReturns, later]
      rfl

end Text

theorem withReturn_of_not_mem {line : Text} (free : '\r' ∉ line) :
    withReturn line = line ++ ['\r'] := by
  rw [withReturn, if_neg]
  rw [Text.endsWith_singleton]
  exact fun last => free (List.mem_of_getLast? last)

/-- Lines that each end in a line feed get their carriage returns one by one. -/
theorem Text.putReturns_endLines {lines : List Text} (plain : ∀ line ∈ lines, line.IsPlain) :
    (Text.endLines lines).putReturns = Text.endLines (lines.map withReturn) := by
  induction lines with
  | nil => rfl
  | cons line rest ih =>
      obtain ⟨here, later⟩ := List.forall_mem_cons.1 plain
      have feed : Text.putReturns ('\n' :: Text.endLines rest) =
          '\r' :: '\n' :: (Text.endLines rest).putReturns := rfl
      rw [List.map_cons, Text.endLines_cons, Text.endLines_cons, Text.putReturns_append, feed,
        Text.putReturns_of_not_mem here.1, ih later, withReturn_of_not_mem here.2,
        List.append_assoc, List.singleton_append]

/-! ## One hunk, and a run -/

theorem map_dropReturns_withReturn (lines : List Text) :
    (lines.map withReturn).map Text.dropReturns = lines.map Text.dropReturns := by
  have same : Text.dropReturns ∘ withReturn = Text.dropReturns := funext dropReturns_withReturn
  rw [List.map_map, same]

/-- **A block is found where it is found without the carriage returns.** -/
theorem locate_map_withReturn (lines block : List Text) (expected : Option Int) :
    locate (lines.map withReturn) block expected = locate lines block expected := by
  have candidates : occurrences (lines.map withReturn) block = occurrences lines block := by
    rw [occurrences, map_dropReturns_withReturn, occurrences]
  simp only [locate, candidates, List.length_map]

namespace Placement

variable {path : String} {number : Nat} {file : Placement} {hunk : Hunk} {hunks : List Hunk}

/-- The file with a carriage return at the end of every line. -/
def withReturns (file : Placement) : Placement := ⟨file.lines.map withReturn, file.shift⟩

/-- One hunk does the same to a file with carriage returns and without. -/
theorem place_withReturns (file : Placement) (hunk : Hunk) :
    file.withReturns.place true hunk = (file.place false hunk).map withReturns := by
  have found : ∀ expected, locate file.withReturns.lines hunk.oldSide expected =
      locate file.lines hunk.oldSide expected := locate_map_withReturn file.lines hunk.oldSide
  have shift : file.withReturns.shift = file.shift := rfl
  simp only [place, found, shift]
  split
  · rfl
  · split
    · rfl
    · simp [Except.map, withReturns]

/-- **A run on a file with carriage returns mirrors the run on the file without them**, conflicts
included. -/
theorem placeAll_withReturns (path : String) (number : Nat) (file : Placement)
    (hunks : List Hunk) :
    placeAll true path number file.withReturns hunks =
      (placeAll false path number file hunks).map withReturns := by
  induction hunks generalizing number file with
  | nil => rfl
  | cons hunk rest ih =>
      rw [placeAll, placeAll, place_withReturns]
      cases file.place false hunk with
      | error reason => rfl
      | ok next => exact ih (number + 1) next

end Placement

/-! ## Whole texts -/

/-- The lines of a text that ends in a line feed, unless it is nothing else. -/
theorem fileLines_endLines {lines : List Text} (free : ∀ line ∈ lines, '\n' ∉ line)
    (notLone : lines ≠ [[]]) (nonempty : lines ≠ []) : fileLines (Text.endLines lines) = lines := by
  have ended : (Text.endLines lines).endsWith ['\n'] = true := by
    rw [Text.endLines_eq_unlines nonempty]
    exact Text.endsWith_append_singleton _ _
  rw [fileLines, if_pos ended, Text.lines_endLines free, List.dropLast_concat]
  exact if_neg notLone

theorem usesReturns_map_withReturn {lines : List Text} (nonempty : lines ≠ []) :
    usesReturns (lines.map withReturn) = true := by
  obtain ⟨line, rest, rfl⟩ := List.exists_cons_of_ne_nil nonempty
  have ended : (withReturn line).endsWith ['\r'] = true := by
    unfold withReturn
    split
    · assumption
    · exact Text.endsWith_append_singleton line '\r'
  exact ended

/-- A text without carriage returns that ends in a line feed, and more than that, is made of plain
lines. -/
theorem exists_endLines {content : Text} (ended : content.endsWith ['\n'] = true)
    (notLone : content ≠ ['\n']) (free : '\r' ∉ content) :
    ∃ lines, content = Text.endLines lines ∧ (∀ line ∈ lines, line.IsPlain) ∧ lines ≠ [] ∧
      lines ≠ [[]] := by
  obtain ⟨front, rfl⟩ := List.isSuffixOf_iff_suffix.1 ended
  have nonempty := Text.lines_ne_nil front
  refine ⟨Text.lines front, ?_, fun line member => ⟨?_, fun inside => free ?_⟩, nonempty, ?_⟩
  · rw [Text.endLines_eq_unlines nonempty, Text.unlines, Text.lines, Text.joinWith_split]
  · exact Text.not_mem_of_mem_lines member
  · exact List.mem_append_left _ (Text.mem_of_mem_split member inside)
  · intro single
    rw [lines_eq_singleton_nil_iff] at single
    rw [single] at notLone
    exact notLone rfl

/-- Placing hunks on the text with carriage returns is the run on the lines without them. -/
theorem applyAnchored_putReturns_eq (path : String) {content : Text} (hunks : List Hunk)
    (ended : content.endsWith ['\n'] = true) (notLone : content ≠ ['\n']) (free : '\r' ∉ content) :
    applyAnchored path content.putReturns hunks =
      (Placement.placeAll false path 0 ⟨fileLines content, 0⟩ hunks).map fun file =>
        fileText true (file.lines.map withReturn) := by
  obtain ⟨lines, rfl, plain, nonempty, notBlank⟩ := exists_endLines ended notLone free
  have mappedFree : ∀ line ∈ lines.map withReturn, '\n' ∉ line := by
    intro line member
    obtain ⟨bare, among, rfl⟩ := List.mem_map.1 member
    rw [withReturn_of_not_mem (plain bare among).2]
    simp [(plain bare among).1]
  have mappedNonempty : lines.map withReturn ≠ [] := by simp [nonempty]
  have mappedNotBlank : lines.map withReturn ≠ [[]] := by
    intro blank
    have returns := usesReturns_map_withReturn nonempty
    rw [blank] at returns
    exact nomatch returns
  have linesFree : ∀ line ∈ lines, '\n' ∉ line := fun line member => (plain line member).1
  have mappedEnded : (Text.endLines (lines.map withReturn)).endsWith ['\n'] = true := by
    rw [Text.endLines_eq_unlines mappedNonempty]
    exact Text.endsWith_append_singleton _ _
  have mirrored := Placement.placeAll_withReturns path 0 ⟨lines, 0⟩ hunks
  rw [Placement.withReturns] at mirrored
  rw [applyAnchored_eq_map, Text.putReturns_endLines plain,
    fileLines_endLines mappedFree mappedNotBlank mappedNonempty,
    fileLines_endLines linesFree notBlank nonempty, usesReturns_map_withReturn nonempty, mirrored,
    mappedEnded]
  cases Placement.placeAll false path 0 ⟨lines, 0⟩ hunks with
  | error conflict => rfl
  | ok file => rfl

/-- What is left of a file has carriage returns in front of its line feeds, unless nothing is left:
then there is a single line feed. -/
theorem fileText_map_withReturn_eq_iff {lines : List Text} (plain : ∀ line ∈ lines, line.IsPlain) :
    fileText true (lines.map withReturn) = (fileText true lines).putReturns ↔ lines ≠ [] := by
  constructor
  · rintro same rfl
    exact absurd same (by decide)
  · intro nonempty
    have mapped : lines.map withReturn ≠ [] := by simp [nonempty]
    rw [fileText, fileText, if_pos rfl, ← Text.endLines_eq_unlines nonempty,
      ← Text.endLines_eq_unlines mapped, Text.putReturns_endLines plain]

/-- **Anchored placement commutes with putting in carriage returns.**  Take a text without carriage
returns that ends in a line feed and is more than that, and hunks without carriage returns.  On the
text with a carriage return in front of every line feed the hunks fail exactly as they do on the
text itself, at the same hunk and for the same reason.  When they succeed, the result is the other
result with its carriage returns put in, exactly if some line of the file is left; the lines of the
hunks are taken to be lines, free of line feeds. -/
theorem applyAnchored_putReturns {path : String} {content : Text} {hunks : List Hunk}
    (ended : content.endsWith ['\n'] = true) (notLone : content ≠ ['\n']) (free : '\r' ∉ content)
    (hunksFree : ∀ hunk ∈ hunks, hunk.HasNoReturns) :
    (∀ result, applyAnchored path content hunks = .ok result →
      (∀ hunk ∈ hunks, ∀ line ∈ hunk.body, '\n' ∉ line) →
        ∃ file, LeftBy path content hunks file ∧ result = fileText true file.lines ∧
          (applyAnchored path content.putReturns hunks = .ok result.putReturns ↔
            file.lines ≠ [])) ∧
      ∀ conflict, applyAnchored path content.putReturns hunks = .error conflict ↔
        applyAnchored path content hunks = .error conflict := by
  have linesFree : ∀ line ∈ fileLines content, '\r' ∉ line :=
    fun line => not_mem_of_mem_fileLines free
  have mirrored := applyAnchored_putReturns_eq path hunks ended notLone free
  constructor
  · intro result applied lined
    obtain ⟨file, placed, joined⟩ := applyAnchored_eq_ok_iff.1 applied
    rw [ended] at joined
    refine ⟨file, placed, joined, ?_⟩
    rw [usesReturns_fileLines free] at placed
    have linesWhole : ∀ line ∈ fileLines content, '\n' ∉ line := fun line member =>
      Text.not_mem_of_mem_lines (mem_lines_of_mem_fileLines member)
    have plain : ∀ line ∈ file.lines, line.IsPlain := fun line member =>
      ⟨placeAll_free lined linesWhole placed line member,
        placeAll_free hunksFree linesFree placed line member⟩
    rw [mirrored, placed, joined, ← fileText_map_withReturn_eq_iff plain]
    simp [Except.map]
  · intro conflict
    rw [mirrored, applyAnchored_eq_error_iff, usesReturns_fileLines free]
    cases Placement.placeAll false path 0 ⟨fileLines content, 0⟩ hunks with
    | error other => simp [Except.map]
    | ok file => simp [Except.map]

/-- A hunk that changes a line far above the place its header names. -/
def farHunk : Hunk := ⟨"@@ -9 +9 @@".toList, some ⟨9, 1, 9, 1⟩, ["-b".toList, "+c".toList], []⟩

/-- A hunk without line ranges that adds an empty line at the end. -/
def blankEndHunk : Hunk := ⟨"@@".toList, none, [['+']], []⟩

/-- The two hunks on a file whose lines end in carriage returns, which those of the hunks do not; and
a conflict at the second of two hunks. -/
theorem applyAnchored_putReturns_far :
    applyAnchored "f" "a\r\n\r\nb\r\n".toList [farHunk, blankEndHunk] =
        .ok "a\r\n\r\nc\r\n\r\n".toList ∧
      applyAnchored "f" "a\r\n\r\nb\r\n".toList [farHunk, farHunk] =
        .error ⟨"f", 1, .noMatch⟩ := by
  have free : '\r' ∉ "a\n\nb\n".toList := by decide
  have far : farHunk.HasNoReturns := by decide
  have blank : blankEndHunk.HasNoReturns := by decide
  have applied : applyAnchored "f" "a\n\nb\n".toList [farHunk, blankEndHunk] =
      .ok "a\n\nc\n\n".toList := rfl
  have conflict : applyAnchored "f" "a\n\nb\n".toList [farHunk, farHunk] =
      .error ⟨"f", 1, .noMatch⟩ := rfl
  constructor
  · obtain ⟨file, left, joined, commutes⟩ :=
      (applyAnchored_putReturns rfl (by decide) free (by simp [far, blank])).1 _ applied (by decide)
    refine commutes.2 ?_
    rintro nothing
    rw [nothing] at joined
    exact absurd joined (by decide)
  · exact ((applyAnchored_putReturns rfl (by decide) free (by simp [far])).2 _).2 conflict

end Traceability
