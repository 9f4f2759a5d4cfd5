/-
# Traceability.Proofs.Text.Lines -- cutting joined lines gives the lines back

`Text.lines` and `Text.unlines` are inverse on texts whose lines hold no line
feed, the empty list of lines apart: joined, it is the empty text, which has one
empty line (`lines_unlines`).  A text made of lines that each end in a line feed
has one more, empty line at its end (`lines_endLines`).  Where two texts are put
together, the last line of one and the first line of the other join (`lines_append`).
-/
import Traceability.Text.Basic

namespace Traceability.Text

set_option autoImplicit false

/-! ## Pieces -/

theorem split_cons_separator (separator : Char) (rest : Text) :
    split separator (separator :: rest) = [] :: split separator rest := by
  simp only [split, if_true]

/-- A character that is no separator joins the first piece. -/
theorem split_cons_of_ne {separator c : Char} {rest piece : Text} {others : List Text}
    (ne : c ≠ separator) (cut : split separator rest = piece :: others) :
    split separator (c :: rest) = (c :: piece) :: others := by
  simp only [split, if_neg ne, cut]

/-- The pieces of two texts with a separator between them are the pieces of each. -/
theorem split_append_cons (separator : Char) (front rest : Text) :
    split separator (front ++ separator :: rest) =
      split separator front ++ split separator rest := by
  induction front with
  | nil => exact split_cons_separator separator rest
  | cons c front ih =>
      rw [List.cons_append]
      by_cases eq : c = separator
      · rw [eq, split_cons_separator, split_cons_separator, ih, List.cons_append]
      · obtain ⟨piece, others, cut⟩ := List.exists_cons_of_ne_nil (split_ne_nil separator front)
        rw [cut, List.cons_append] at ih
        rw [split_cons_of_ne eq cut, split_cons_of_ne eq ih, List.cons_append]

theorem split_of_not_mem {separator : Char} {piece : Text} (free : separator ∉ piece) :
    split separator piece = [piece] := by
  induction piece with
  | nil => rfl
  | cons c piece ih =>
      simp only [List.mem_cons, not_or] at free
      exact split_cons_of_ne (Ne.symm free.1) (ih free.2)

theorem split_append_separator {separator : Char} {piece : Text} (free : separator ∉ piece)
    (rest : Text) : split separator (piece ++ separator :: rest) = piece :: split separator rest := by
  rw [split_append_cons, split_of_not_mem free, List.singleton_append]

/-- No piece contains the separator. -/
theorem not_mem_of_mem_split {separator : Char} {text piece : Text}
    (member : piece ∈ split separator text) : separator ∉ piece := by
  induction text generalizing piece with
  | nil =>
      simp only [split, List.mem_singleton] at member
      simp [member]
  | cons c rest ih =>
      obtain ⟨first, others, cut⟩ := List.exists_cons_of_ne_nil (split_ne_nil separator rest)
      rw [cut] at ih
      by_cases eq : c = separator
      · rw [eq, split_cons_separator, cut] at member
        rcases List.mem_cons.1 member with rfl | later
        · simp
        · exact ih later
      · rw [split_cons_of_ne eq cut] at member
        rcases List.mem_cons.1 member with rfl | later
        · simp only [List.mem_cons, not_or]
          exact ⟨Ne.symm eq, ih List.mem_cons_self⟩
        · exact ih (List.mem_cons_of_mem _ later)

theorem joinWith_cons (separator : Char) (piece : Text) {others : List Text}
    (nonempty : others ≠ []) :
    joinWith separator (piece :: others) = piece ++ separator :: joinWith separator others := by
  cases others with
  | nil => exact absurd rfl nonempty
  | cons next rest => rfl

/-- Pieces without separators come back. -/
theorem split_joinWith {separator : Char} {pieces : List Text} (nonempty : pieces ≠ [])
    (free : ∀ piece ∈ pieces, separator ∉ piece) :
    split separator (joinWith separator pieces) = pieces := by
  induction pieces with
  | nil => exact absurd rfl nonempty
  | cons piece others ih =>
      have here : separator ∉ piece := free piece List.mem_cons_self
      by_cases last : others = []
      · rw [last]
        exact split_of_not_mem here
      · rw [joinWith_cons separator piece last, split_append_separator here,
          ih last fun other member => free other (List.mem_cons_of_mem _ member)]

/-! ### Characters -/

theorem mem_of_mem_split {separator c : Char} {text piece : Text}
    (member : piece ∈ split separator text) (among : c ∈ piece) : c ∈ text := by
  induction text generalizing piece with
  | nil =>
      rw [List.mem_singleton.1 member] at among
      exact absurd among List.not_mem_nil
  | cons d rest ih =>
      by_cases eq : d = separator
      · rw [eq, split_cons_separator] at member
        rcases List.mem_cons.1 member with rfl | later
        · exact absurd among List.not_mem_nil
        · exact List.mem_cons_of_mem d (ih later among)
      · obtain ⟨first, others, cut⟩ := List.exists_cons_of_ne_nil (split_ne_nil separator rest)
        rw [cut] at ih
        rw [split_cons_of_ne eq cut] at member
        rcases List.mem_cons.1 member with rfl | later
        · rcases List.mem_cons.1 among with rfl | inFirst
          · exact List.mem_cons_self
          · exact List.mem_cons_of_mem d (ih List.mem_cons_self inFirst)
        · exact List.mem_cons_of_mem d (ih (List.mem_cons_of_mem _ later) among)

theorem mem_joinWith {separator c : Char} {pieces : List Text}
    (member : c ∈ joinWith separator pieces) : c = separator ∨ ∃ piece ∈ pieces, c ∈ piece := by
  induction pieces with
  | nil => exact absurd member List.not_mem_nil
  | cons piece others ih =>
      by_cases last : others = []
      · rw [last] at member
        exact Or.inr ⟨piece, List.mem_cons_self, member⟩
      · rw [joinWith_cons separator piece last, List.mem_append, List.mem_cons] at member
        rcases member with here | rfl | later
        · exact Or.inr ⟨piece, List.mem_cons_self, here⟩
        · exact Or.inl rfl
        · rcases ih later with same | ⟨other, among, within⟩
          · exact Or.inl same
          · exact Or.inr ⟨other, List.mem_cons_of_mem _ among, within⟩

/-! ## Lines -/

theorem lines_ne_nil (text : Text) : text.lines ≠ [] := split_ne_nil '\n' text

theorem unlines_lines (text : Text) : unlines text.lines = text := joinWith_split '\n' text

theorem lines_append_newline (front rest : Text) :
    lines (front ++ '\n' :: rest) = lines front ++ lines rest :=
  split_append_cons '\n' front rest

theorem lines_unlines {texts : List Text} (nonempty : texts ≠ [])
    (free : ∀ line ∈ texts, '\n' ∉ line) : (unlines texts).lines = texts :=
  split_joinWith nonempty free

/-- Lines without line feeds come back, and after them the lines of what follows a line feed. -/
theorem lines_unlines_append {texts : List Text} (nonempty : texts ≠ [])
    (free : ∀ line ∈ texts, '\n' ∉ line) (rest : Text) :
    (unlines texts ++ '\n' :: rest).lines = texts ++ rest.lines := by
  rw [lines_append_newline, lines_unlines nonempty free]

theorem not_mem_of_mem_lines {text line : Text} (member : line ∈ text.lines) : '\n' ∉ line :=
  not_mem_of_mem_split member

/-- A piece without line feeds put among the lines of a text is one line more. -/
theorem lines_unlines_insert {text piece : Text} {before after : List Text}
    (cut : text.lines = before ++ after) (free : '\n' ∉ piece) :
    (unlines (before ++ piece :: after)).lines = before ++ piece :: after := by
  refine lines_unlines (by simp) fun line member => ?_
  rw [List.mem_append, List.mem_cons, or_left_comm, ← List.mem_append, ← cut] at member
  rcases member with rfl | old
  · exact free
  · exact not_mem_of_mem_lines old

/-- Lines that each end in a line feed. -/
def endLines (texts : List Text) : Text := texts.flatMap (· ++ ['\n'])

theorem endLines_cons (line : Text) (rest : List Text) :
    endLines (line :: rest) = line ++ '\n' :: endLines rest := by
  simp only [endLines, List.flatMap_cons, List.append_assoc, List.cons_append, List.nil_append]

theorem lines_endLines {texts : List Text} (free : ∀ line ∈ texts, '\n' ∉ line) :
    (endLines texts).lines = texts ++ [[]] := by
  induction texts with
  | nil => rfl
  | cons line others ih =>
      rw [endLines_cons, lines, split_append_separator (free line List.mem_cons_self)]
      exact congrArg (line :: ·) (ih fun line member => free line (List.mem_cons_of_mem _ member))

/-- The lines before a line each end in a line feed. -/
theorem unlines_append_cons (texts : List Text) (line : Text) (rest : List Text) :
    unlines (texts ++ line :: rest) = endLines texts ++ unlines (line :: rest) := by
  induction texts with
  | nil => rfl
  | cons first others ih =>
      have more : others ++ line :: rest ≠ [] := by simp
      rw [List.cons_append, unlines, joinWith_cons '\n' first more, ← unlines, ih]
      simp [endLines]

/-- One line more among lines is the line and a line feed. -/
theorem unlines_insert (before : List Text) (piece line : Text) (after : List Text) :
    unlines (before ++ piece :: line :: after) =
      endLines before ++ (piece ++ ['\n']) ++ unlines (line :: after) := by
  rw [unlines_append_cons, unlines, joinWith_cons '\n' piece (List.cons_ne_nil line after), ← unlines]
  simp only [List.append_assoc, List.cons_append, List.nil_append]

theorem endLines_eq_unlines {texts : List Text} (nonempty : texts ≠ []) :
    endLines texts = unlines texts ++ ['\n'] := by
  rcases List.eq_nil_or_concat texts with rfl | ⟨front, last, rfl⟩
  · exact absurd rfl nonempty
  · rw [List.concat_eq_append, unlines_append_cons]
    simp [endLines, unlines, joinWith]

/-- Lines that each end in a line feed make a text that is empty or ends in one. -/
theorem endLines_eq_nil_or_suffix (texts : List Text) :
    endLines texts = [] ∨ ['\n'] <:+ endLines texts := by
  rcases List.eq_nil_or_concat texts with rfl | ⟨front, last, rfl⟩
  · exact Or.inl rfl
  · refine Or.inr ⟨endLines front ++ last, ?_⟩
    simp [endLines]

/-- Lines that each begin with a line feed. -/
def beginLines (texts : List Text) : Text := texts.flatMap ('\n' :: ·)

/-- The lines behind a line each begin with a line feed. -/
theorem unlines_cons (line : Text) (rest : List Text) :
    unlines (line :: rest) = line ++ beginLines rest := by
  induction rest generalizing line with
  | nil => exact (List.append_nil line).symm
  | cons next rest ih =>
      rw [unlines, joinWith_cons '\n' line (List.cons_ne_nil next rest), ← unlines, ih]
      rfl

/-- A text is one of its lines between the lines before and the lines behind it. -/
theorem eq_of_lines_eq {text line : Text} {before after : List Text}
    (lines : text.lines = before ++ line :: after) :
    text = endLines before ++ (line ++ beginLines after) := by
  rw [← unlines_lines text, lines, unlines_append_cons, unlines_cons]

theorem exists_lines_eq_append (text : Text) : ∃ before last, text.lines = before ++ [last] := by
  rcases List.eq_nil_or_concat text.lines with none_ | ⟨before, last, ends⟩
  · exact absurd none_ (lines_ne_nil text)
  · exact ⟨before, last, by rw [ends, List.concat_eq_append]⟩

/-- The last line of a text and the first line of the next one join. -/
theorem lines_append {front back last first : Text} {before after : List Text}
    (inFront : front.lines = before ++ [last]) (inBack : back.lines = first :: after) :
    (front ++ back).lines = before ++ (last ++ first) :: after := by
  have free : ∀ line ∈ before ++ (last ++ first) :: after, '\n' ∉ line := by
    have ofFront : ∀ line ∈ before ++ [last], '\n' ∉ line :=
      inFront ▸ fun _ => not_mem_of_mem_lines
    have ofBack : ∀ line ∈ first :: after, '\n' ∉ line := inBack ▸ fun _ => not_mem_of_mem_lines
    simp only [List.mem_append, List.mem_cons, List.not_mem_nil, or_false] at ofFront ofBack ⊢
    rintro line (above | rfl | below)
    · exact ofFront line (Or.inl above)
    · rw [List.mem_append, not_or]
      exact ⟨ofFront last (Or.inr rfl), ofBack first (Or.inl rfl)⟩
    · exact ofBack line (Or.inr below)
  have joined : front ++ back = unlines (before ++ (last ++ first) :: after) := by
    rw [eq_of_lines_eq inFront, eq_of_lines_eq (inBack.trans (List.nil_append _).symm),
      unlines_append_cons, unlines_cons]
    simp [beginLines, endLines]
  rw [joined, lines_unlines (by simp) free]

/-! ## Ends -/

theorem endsWith_singleton (text : Text) (c : Char) :
    text.endsWith [c] = true ↔ text.getLast? = some c := by
  rw [endsWith, List.isSuffixOf_iff_suffix, List.singleton_suffix_iff_getLast?_eq_some]

theorem endsWith_append_singleton (text : Text) (c : Char) : (text ++ [c]).endsWith [c] = true := by
  rw [endsWith_singleton, List.getLast?_concat]

end Traceability.Text
