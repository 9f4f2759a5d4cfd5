/-
# Traceability.Proofs.Source.Surroundings -- a construct does not depend on what is around it

A declaration covers a block of lines.  When the lines around the block are
replaced and its extent still is the block, the declaration is found again, with
the block moved to another place (`Declaration.stays`), and so is its construct:
a fingerprint is taken of the block alone.

In the indented family the extent is measured in two parts.  The signature goes
up to the first line after which no bracket is open, so if there is one, nothing
behind it matters (`signatureLength_take`).  The block below it goes up to the
first line that is not deep enough; blank lines in front of that line are held back
and do not count (`blockLength_append`).  So it takes a deeper line right below a
construct, blank lines aside, to change it (`parse_around_indented`).
-/
import Traceability.Proofs.Source.Extent
import Traceability.Proofs.Source.Extraction

namespace Traceability

set_option autoImplicit false

/-! ## Blocks -/

/-- A declaration covers at least one line and ends within the lines. -/
theorem within_of_mem_declarations {family : Family} {lines : List Text}
    {declaration : Declaration} (member : declaration ∈ declarations family lines) :
    declaration.start < declaration.stop ∧ declaration.stop ≤ lines.length := by
  obtain ⟨before, line, after, name, kind, rfl, -, rfl⟩ := mem_declarations_iff.1 member
  have positive := extentLength_pos family line after
  have within := extentLength_le family (line :: after)
  rw [List.length_append]
  exact ⟨by dsimp only; omega, by dsimp only; omega⟩

namespace Declaration

/-- The lines that a declaration covers. -/
def block (declaration : Declaration) (lines : List Text) : List Text :=
  (lines.drop declaration.start).take (declaration.stop - declaration.start)

/-- The declaration with as many lines, the first of which has another number. -/
def movedTo (declaration : Declaration) (start : Nat) : Declaration :=
  { declaration with start := start, stop := start + (declaration.stop - declaration.start) }

variable {family : Family} {lines : List Text} {declaration : Declaration}

theorem text_eq_unlines_block (declaration : Declaration) (lines : List Text) :
    declaration.text lines = Text.unlines (declaration.block lines) :=
  rfl

/-- A block begins with the line that declares its name, and is as long as the extent of that line
says. -/
theorem exists_block (member : declaration ∈ declarations family lines) :
    ∃ first below after, lines.drop declaration.start = first :: below ++ after ∧
      declaration.block lines = first :: below ∧
      declared? family first = some (declaration.name, declaration.kind) ∧
      declaration.stop = declaration.start + (first :: below).length ∧
      extentLength family (first :: below ++ after) = (first :: below).length := by
  obtain ⟨before, first, rest, name, kind, rfl, declares, rfl⟩ := mem_declarations_iff.1 member
  obtain ⟨length, extent⟩ := Nat.exists_eq_add_of_lt (extentLength_pos family first rest)
  rw [Nat.zero_add] at extent
  have within := extentLength_le family (first :: rest)
  rw [extent, List.length_cons] at within
  have covered : (first :: rest.take length).length = length + 1 := by
    rw [List.length_cons, List.length_take_of_le (Nat.le_of_succ_le_succ within)]
  refine ⟨first, rest.take length, rest.drop length, ?_, ?_, declares, ?_, ?_⟩
  · simp
  · simp [block, extent]
  · rw [covered, extent]
  · rw [covered, List.cons_append, List.take_append_drop, extent]

/-- **A declaration is found again around its block, if its extent still is the block.** -/
theorem stays (member : declaration ∈ declarations family lines) (before after : List Text)
    (extent : extentLength family (declaration.block lines ++ after) =
      (declaration.block lines).length) :
    declaration.movedTo before.length ∈
        declarations family (before ++ declaration.block lines ++ after) ∧
      (declaration.movedTo before.length).block (before ++ declaration.block lines ++ after) =
        declaration.block lines := by
  obtain ⟨first, below, behind, -, covers, declares, stop, -⟩ := exists_block member
  rw [covers] at extent ⊢
  have length : declaration.stop - declaration.start = (first :: below).length := by omega
  constructor
  · rw [mem_declarations_iff]
    refine ⟨before, first, below ++ after, declaration.name, declaration.kind, by simp, declares, ?_⟩
    rw [movedTo, length, ← List.cons_append, extent]
  · rw [block, movedTo, length, Nat.add_sub_cancel_left, List.append_assoc, List.drop_left,
      List.take_left]

end Declaration

namespace SourceParser

variable {parser : SourceParser} {family : Family} {declaration : Declaration}

/-- The construct of a declaration depends on its name, its kind and its block. -/
theorem construct_movedTo (parser : SourceParser) (family : Family) {lines others : List Text}
    {start : Nat} (same : (declaration.movedTo start).block others = declaration.block lines) :
    parser.construct family others (declaration.movedTo start) =
      parser.construct family lines declaration := by
  rw [construct, construct, Declaration.text_eq_unlines_block, same]
  rfl

/-- A text lists the construct of each of its declarations under its kind. -/
theorem construct_mem_listed {content : Text} {path : String}
    (read : parser.familyOf path content.lines = family)
    (member : declaration ∈ declarations family content.lines) :
    parser.construct family content.lines declaration ∈
      (parser.parse content path).listed declaration.kind := by
  subst read
  rw [listed_parse, List.mem_filter]
  exact ⟨List.mem_map_of_mem member, decide_eq_true rfl⟩

/-- A text that has the block of a declaration in another place lists the construct it has here. -/
theorem construct_mem_listed_movedTo {lines : List Text} {start : Nat} {content : Text}
    {path : String} (read : parser.familyOf path content.lines = family)
    (found : declaration.movedTo start ∈ declarations family content.lines)
    (same : (declaration.movedTo start).block content.lines = declaration.block lines) :
    parser.construct family lines declaration ∈
      (parser.parse content path).listed declaration.kind := by
  have listed := construct_mem_listed read found
  rw [construct_movedTo parser family same] at listed
  exact listed

end SourceParser

/-! ## Signatures -/

/-- With so many brackets open in front of the lines, is there a line after which none is open? -/
def SignatureCloses (open_ : Int) (lines : List Text) : Prop :=
  ∃ n, n < lines.length ∧ ((lines.take (n + 1)).map bracketBalance).foldl (· + ·) open_ ≤ 0

theorem signatureCloses_cons {open_ : Int} {line : Text} {rest : List Text} :
    SignatureCloses open_ (line :: rest) ↔
      open_ + bracketBalance line ≤ 0 ∨ SignatureCloses (open_ + bracketBalance line) rest := by
  constructor
  · rintro ⟨n, within, closed⟩
    cases n with
    | zero => exact Or.inl closed
    | succ n => exact Or.inr ⟨n, Nat.lt_of_succ_lt_succ within, closed⟩
  · rintro (closed | ⟨n, within, closed⟩)
    · exact ⟨0, Nat.succ_pos _, closed⟩
    · exact ⟨n + 1, Nat.succ_lt_succ within, closed⟩

/-- What stands behind a signature that closes has no influence on it. -/
theorem signatureLength_take {open_ : Int} {lines : List Text}
    (closes : SignatureCloses open_ lines) {reach : Nat}
    (within : signatureLength open_ lines ≤ reach) (after : List Text) :
    signatureLength open_ (lines.take reach ++ after) = signatureLength open_ lines := by
  induction lines generalizing open_ reach with
  | nil =>
      obtain ⟨n, within, -⟩ := closes
      exact absurd within (Nat.not_lt_zero n)
  | cons line rest ih =>
      rw [signatureLength] at within ⊢
      by_cases closed : open_ + bracketBalance line ≤ 0
      · rw [if_pos closed] at within ⊢
        obtain ⟨reach, rfl⟩ := Nat.exists_eq_add_of_le within
        rw [Nat.add_comm, List.take_succ_cons, List.cons_append, signatureLength, if_pos closed]
      · rw [if_neg closed] at within ⊢
        obtain ⟨reach, rfl⟩ := Nat.exists_eq_add_of_le (Nat.le_trans (Nat.le_add_right 1 _) within)
        have later := ih ((signatureCloses_cons.1 closes).resolve_left closed)
          (Nat.le_of_add_le_add_left within)
        rw [Nat.add_comm 1 reach, List.take_succ_cons, List.cons_append, signatureLength,
          if_neg closed, later]

/-! ## Blocks of deeper lines -/

/-- The first line that is not blank, if any, is indented no deeper. -/
def Outdented (indent : Nat) (lines : List Text) : Prop :=
  ∀ next, lines.find? (!·.isBlankText) = some next → indentWidth next ≤ indent

theorem blockLength_of_outdented {indent : Nat} {lines : List Text}
    (outdented : Outdented indent lines) : blockLength indent lines = 0 := by
  induction lines with
  | nil => rfl
  | cons line rest ih =>
      unfold Outdented at ih outdented
      rw [blockLength]
      cases blank : line.isBlankText with
      | true =>
          rw [List.find?_cons_of_neg (by simp [blank])] at outdented
          rw [if_pos rfl, ih outdented]
      | false =>
          rw [List.find?_cons_of_pos (by simp [blank])] at outdented
          rw [if_neg Bool.false_ne_true, if_pos (outdented line rfl)]

/-- A block that ends in front of some lines ends there in front of all lines that are not deeper. -/
theorem blockLength_append {indent : Nat} {body after : List Text}
    (ends : blockLength indent (body ++ after) = body.length) {others : List Text}
    (outdented : Outdented indent others) :
    blockLength indent (body ++ others) = body.length := by
  induction body with
  | nil => exact blockLength_of_outdented outdented
  | cons line body ih =>
      rw [List.cons_append, blockLength, List.length_cons] at ends ⊢
      cases blank : line.isBlankText with
      | true =>
          rw [blank, if_pos rfl] at ends
          rw [if_pos rfl]
          split at ends
          · exact absurd ends (Nat.succ_ne_zero _).symm
          · rename_i length below
            rw [ih (below.trans (Nat.succ.inj ends)), ← Nat.succ.inj ends]
      | false =>
          rw [blank, if_neg Bool.false_ne_true] at ends
          rw [if_neg Bool.false_ne_true]
          split at ends
          · exact absurd ends (Nat.succ_ne_zero _).symm
          · rename_i deeper
            rw [if_neg deeper, ih (by omega), Nat.add_comm]

/-- **A construct of the indented family ends in front of all lines that are not deeper.** -/
theorem indentedLength_append {first : Text} {below after : List Text}
    (closes : SignatureCloses 0 (first :: below ++ after))
    (extent : indentedLength (first :: below ++ after) = (first :: below).length)
    {others : List Text} (outdented : Outdented (indentWidth first) others) :
    indentedLength (first :: below ++ others) = (first :: below).length := by
  rw [List.cons_append, indentedLength, ← List.cons_append] at extent ⊢
  have within : signatureLength 0 (first :: below ++ after) ≤ (first :: below).length := by omega
  have signature := signatureLength_take closes within others
  rw [List.take_left] at signature
  rw [List.drop_append_of_le_length within] at extent
  -- The rest of the block is what is deeper, so it ends where it did.
  have body : blockLength (indentWidth first)
      ((first :: below).drop (signatureLength 0 (first :: below ++ after)) ++ after) =
        ((first :: below).drop (signatureLength 0 (first :: below ++ after))).length := by
    rw [List.length_drop]
    omega
  rw [signature, List.drop_append_of_le_length within, blockLength_append body outdented,
    List.length_drop]
  omega

/-! ## Constructs of the indented family -/

namespace SourceParser

/-- **The lines around a construct of the indented family have no influence on it.**  Let its
signature close.  Put any lines in front of its block, and behind it any lines that do not begin,
blank ones aside, with a deeper one: the text is read in the indented family as before, the
declaration stands in front of the same block, and the same construct is listed. -/
theorem parse_around_indented (parser : SourceParser) {path : String} {content edited : Text}
    {declaration : Declaration} {before after : List Text}
    (python : parser.familyOf path content.lines = .python)
    (member : declaration ∈ declarations .python content.lines)
    (closes : SignatureCloses 0 (content.lines.drop declaration.start))
    (edit : edited.lines = before ++ declaration.block content.lines ++ after)
    (outdented : ∀ first, content.lines[declaration.start]? = some first →
      Outdented (indentWidth first) after) :
    parser.familyOf path edited.lines = .python ∧
      declaration.movedTo before.length ∈ declarations .python edited.lines ∧
      (declaration.movedTo before.length).block edited.lines = declaration.block content.lines ∧
      parser.construct .python edited.lines (declaration.movedTo before.length) =
        parser.construct .python content.lines declaration ∧
      parser.construct .python content.lines declaration ∈
        (parser.parse edited path).listed declaration.kind := by
  obtain ⟨first, below, behind, from_, covers, declares, -, extent⟩ :=
    Declaration.exists_block member
  have here : content.lines[declaration.start]? = some first := by
    rw [← List.head?_drop, from_]
    rfl
  rw [from_] at closes
  have again : extentLength .python (declaration.block content.lines ++ after) =
      (declaration.block content.lines).length := by
    rw [covers]
    exact indentedLength_append closes extent (outdented first here)
  obtain ⟨found, same⟩ := Declaration.stays member before after again
  have read : parser.familyOf path edited.lines = .python := by
    refine familyOf_of_guess python fun _ => (guessFamily_eq_python_iff _).2 ⟨first, ?_, ?_⟩
    · rw [edit, covers]
      simp
    · rw [declares]
      rfl
  rw [← edit] at found same
  exact ⟨read, found, same, construct_movedTo parser .python same,
    construct_mem_listed_movedTo read found same⟩

/-- A class with a method whose signature goes over several lines, one of them less deep. -/
def boxText : Text :=
  Text.unlines (["class Box:", "    def put(self, items=[", "  1, 2],", "        name=\"(\"):  # (",
    "        self.items = items", "", "        return self", "", "    def take(self): pass"].map
      String.toList)

/-- The method in another class, with a line behind it that is as deep as its own first line. -/
def crateText : Text :=
  Text.unlines (["import os", "", "", "class Crate:", "    def put(self, items=[", "  1, 2],",
    "        name=\"(\"):  # (", "        self.items = items", "", "        return self", "",
    "    size = 3", "        + 4"].map String.toList)

/-- In the other class the method has the same lines and the same fingerprint. -/
theorem parse_around_indented_crate :
    (⟨"put", .callable, 1, 7⟩ : Declaration) ∈ declarations .python boxText.lines ∧
      SignatureCloses 0 (boxText.lines.drop 1) ∧
      (⟨"put", .callable, 4, 10⟩ : Declaration) ∈ declarations .python crateText.lines ∧
      SourceParser.construct {} .python boxText.lines ⟨"put", .callable, 1, 7⟩ ∈
        (SourceParser.parse {} crateText "crate.py").outputs := by
  have member : (⟨"put", .callable, 1, 7⟩ : Declaration) ∈ declarations .python boxText.lines := by
    decide +kernel
  have closes : SignatureCloses 0 (boxText.lines.drop 1) := ⟨2, by decide +kernel, by decide +kernel⟩
  have edit : crateText.lines =
      ["import os", "", "", "class Crate:"].map String.toList ++
        Declaration.block ⟨"put", .callable, 1, 7⟩ boxText.lines ++
        ["", "    size = 3", "        + 4"].map String.toList := by
    decide +kernel
  have outdented : ∀ first, boxText.lines[1]? = some first →
      Outdented (indentWidth first) (["", "    size = 3", "        + 4"].map String.toList) := by
    intro first here next found
    have declares : boxText.lines[1]? = some "    def put(self, items=[".toList := by decide +kernel
    cases declares.symm.trans here
    cases found
    decide
  have python : SourceParser.familyOf {} "crate.py" boxText.lines = .python := by decide +kernel
  obtain ⟨-, found, -, -, listed⟩ :=
    parse_around_indented {} python member closes edit outdented
  exact ⟨member, closes, found, listed⟩

end SourceParser

end Traceability
