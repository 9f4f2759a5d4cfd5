/-
# Traceability.Proofs.Patch.Header -- the header of a hunk is read back

`HunkRange.header` writes line ranges in full, with every number of lines, and
any text behind them.  Reading gives the ranges back (`ofHeader?_header`).
-/
import Traceability.Patch.Reader

namespace Traceability

set_option autoImplicit false

/-- The digits of a number. -/
def Text.ofNumber (n : Nat) : Text := Nat.toDigits 10 n

/-- The header with these ranges; `trailer` is what stands behind the second mark. -/
def HunkRange.header (range : HunkRange) (trailer : Text) : Text :=
  ['@', '@', ' ', '-'] ++ Text.ofNumber range.oldStart ++ [','] ++ Text.ofNumber range.oldCount ++
    [' ', '+'] ++ Text.ofNumber range.newStart ++ [','] ++ Text.ofNumber range.newCount ++
    [' ', '@', '@'] ++ trailer

/-! ## Numbers -/

theorem Text.decimalValue?_of_isDigit {c : Char} (digit : c.isDigit = true) :
    decimalValue? c = some (c.toNat - 48) := by
  have bounds : c.toNat < 128 := by
    simp only [Char.isDigit, Bool.and_eq_true, decide_eq_true_eq] at digit
    have upper : c.toNat ≤ 57 := digit.2
    omega
  rw [decimalValue?, if_pos bounds, if_pos digit]

theorem Text.isDigit_of_mem_ofNumber {n : Nat} {c : Char} (member : c ∈ Text.ofNumber n) :
    c.isDigit = true :=
  Nat.isDigit_of_mem_toDigits (by decide) (by decide) member

theorem Text.isDecimal_of_mem_ofNumber {n : Nat} {c : Char} (member : c ∈ Text.ofNumber n) :
    isDecimal c = true := by
  rw [isDecimal, decimalValue?_of_isDigit (isDigit_of_mem_ofNumber member)]
  rfl

/-- On digits below ten the two ways of reading a number agree. -/
theorem Text.decimalNumber_eq_ofDigitChars {digits : Text}
    (all : ∀ c ∈ digits, c.isDigit = true) (start : Nat) :
    digits.foldl (fun n c => 10 * n + (decimalValue? c).getD 0) start =
      Nat.ofDigitChars 10 digits start := by
  induction digits generalizing start with
  | nil => rfl
  | cons c rest ih =>
      rw [List.foldl_cons, decimalValue?_of_isDigit (all c List.mem_cons_self),
        ih (fun d member => all d (List.mem_cons_of_mem _ member)), Nat.ofDigitChars_cons]
      rfl

theorem Text.decimalNumber_ofNumber (n : Nat) : decimalNumber (Text.ofNumber n) = n := by
  rw [decimalNumber, decimalNumber_eq_ofDigitChars fun c member => isDigit_of_mem_ofNumber member]
  exact Nat.ofDigitChars_ten_toDigits

/-- A number ends where something other than a digit follows. -/
theorem readNumber_ofNumber (n : Nat) {c : Char} (ends : Text.isDecimal c = false) (rest : Text) :
    readNumber (Text.ofNumber n ++ c :: rest) = some (n, c :: rest) := by
  have digits : ∀ d ∈ Text.ofNumber n, Text.isDecimal d = true :=
    fun d member => Text.isDecimal_of_mem_ofNumber member
  have taken : (Text.ofNumber n ++ c :: rest).takeWhile Text.isDecimal = Text.ofNumber n := by
    rw [List.takeWhile_append_of_pos digits, List.takeWhile_cons, ends]
    simp
  have left : (Text.ofNumber n ++ c :: rest).dropWhile Text.isDecimal = c :: rest := by
    rw [List.dropWhile_append_of_pos digits, List.dropWhile_cons, ends]
    rfl
  rw [readNumber, taken, left]
  split
  · rename_i none_read
    exact absurd none_read Nat.toDigits_ne_nil
  · rw [Text.decimalNumber_ofNumber]

theorem readRange_ofNumber (first count : Nat) {c : Char} (ends : Text.isDecimal c = false)
    (rest : Text) :
    readRange (Text.ofNumber first ++ ',' :: (Text.ofNumber count ++ c :: rest)) =
      some (first, count, c :: rest) := by
  have comma : Text.isDecimal ',' = false := by decide
  simp only [readRange, readNumber_ofNumber first comma, readNumber_ofNumber count ends,
    Option.bind_eq_bind, Option.bind_some]

/-! ## Headers -/

theorem trimLeft_cons_of_not_blank {c : Char} (visible : Text.isBlank c = false) (rest : Text) :
    Text.trimLeft (c :: rest) = c :: rest := by
  rw [Text.trimLeft, List.dropWhile_cons, visible]
  rfl

theorem trimLeft_space_cons {c : Char} (visible : Text.isBlank c = false) (rest : Text) :
    Text.trimLeft (' ' :: c :: rest) = c :: rest := by
  have blank : Text.isBlank ' ' = true := by decide
  rw [Text.trimLeft, List.dropWhile_cons, if_pos blank]
  exact trimLeft_cons_of_not_blank visible rest

theorem skipMark_append (mark rest : Text) : skipMark mark (mark ++ rest) = some rest := by
  have opens : mark.isPrefixOf (mark ++ rest) = true :=
    List.isPrefixOf_iff_prefix.2 (List.prefix_append mark rest)
  rw [skipMark, if_pos opens, List.drop_left]

theorem skipMark_singleton (c : Char) (rest : Text) : skipMark [c] (c :: rest) = some rest :=
  skipMark_append [c] rest

theorem skipGap_space_cons {c : Char} (visible : Text.isBlank c = false) (rest : Text) :
    skipGap (' ' :: c :: rest) = some (c :: rest) := by
  have blank : Text.isBlank ' ' = true := by decide
  rw [skipGap, List.head?_cons, Option.map_some, Option.getD_some, if_pos blank,
    trimLeft_space_cons visible]

/-- **The ranges of a header are read back**, whatever stands behind it. -/
theorem HunkRange.ofHeader?_header (range : HunkRange) (trailer : Text) :
    HunkRange.ofHeader? (range.header trailer) = some range := by
  have space : Text.isDecimal ' ' = false := by decide
  have noMark : (' ' == '@') = false := by decide
  have minus : Text.isBlank '-' = false := by decide
  have plus : Text.isBlank '+' = false := by decide
  have mark : Text.isBlank '@' = false := by decide
  have written : range.header trailer =
      ['@', '@'] ++ (' ' :: '-' :: (Text.ofNumber range.oldStart ++ ',' ::
        (Text.ofNumber range.oldCount ++ ' ' :: ('+' :: (Text.ofNumber range.newStart ++ ',' ::
          (Text.ofNumber range.newCount ++ ' ' :: ('@' :: '@' :: trailer))))))) := by
    simp only [header, List.append_assoc, List.cons_append, List.nil_append]
  have closes : skipMark ['@', '@'] ('@' :: '@' :: trailer) = some trailer :=
    skipMark_append ['@', '@'] trailer
  rw [written]
  simp only [ofHeader?, skipMark_append, Option.bind_eq_bind, Option.bind_some,
    List.dropWhile_cons, noMark, Bool.false_eq_true, if_false, trimLeft_space_cons minus,
    trimLeft_space_cons mark, skipMark_singleton, readRange_ofNumber _ _ space,
    skipGap_space_cons plus, closes]

end Traceability
