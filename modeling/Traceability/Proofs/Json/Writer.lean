/-
# Traceability.Proofs.Json.Writer -- what a written document does not contain

A document is written without carriage returns (`not_mem_render`): those of its
strings are escaped, and nothing else that is written has one.  So a document
that has been written to a file is read from there as it was written.
-/
import Traceability.Json.Writer

namespace Traceability

set_option autoImplicit false

/-! ## Numbers -/

theorem not_mem_toDigits {base : Nat} (two : 1 < base) (hexadecimal : base ≤ 16) (n : Nat) :
    '\r' ∉ Nat.toDigits base n := by
  have digit : ∀ d < 16, Nat.digitChar d ≠ '\r' := by decide
  induction n using Nat.strongRecOn with
  | ind n ih =>
      rw [Nat.toDigits_eq_if two]
      by_cases small : n < base
      · rw [if_pos small, List.mem_singleton]
        exact (digit n (by omega)).symm
      · have less : n / base < n := Nat.div_lt_self (by omega) two
        have last : n % base < 16 := Nat.lt_of_lt_of_le (Nat.mod_lt n (by omega)) hexadecimal
        rw [if_neg small, List.mem_append, List.mem_singleton, not_or]
        exact ⟨ih _ less, (digit _ last).symm⟩

namespace Binary64

theorem not_mem_positional {digits : Text} (free : '\r' ∉ digits) (point : Int) :
    '\r' ∉ positional digits point := by
  unfold positional
  split
  · simp [free]
  · split
    · simp [free]
    · simp only [List.mem_append, List.mem_cons, not_or]
      exact ⟨fun member => free (List.mem_of_mem_take member), by decide,
        fun member => free (List.mem_of_mem_drop member)⟩

theorem not_mem_scientific {digits : Text} (free : '\r' ∉ digits) (exponent : Int) :
    '\r' ∉ scientific digits exponent := by
  have first : '\r' ∉ digits.take 1 := fun member => free (List.mem_of_mem_take member)
  have others : '\r' ∉ digits.drop 1 := fun member => free (List.mem_of_mem_drop member)
  have written : '\r' ∉ Nat.toDigits 10 exponent.natAbs :=
    not_mem_toDigits (by decide) (by decide) _
  unfold scientific
  simp only [List.mem_append, List.mem_cons, List.not_mem_nil, List.mem_replicate, not_or]
  refine ⟨⟨⟨⟨first, ?_⟩, by decide, ?_, not_false⟩, by simp⟩, written⟩
  · split
    · exact List.not_mem_nil
    · rw [List.mem_cons, not_or]
      exact ⟨by decide, others⟩
  · split <;> decide

theorem not_mem_magnitudeText (mantissa : Nat) (exponent : Int) :
    '\r' ∉ magnitudeText mantissa exponent := by
  unfold magnitudeText
  split
  · decide
  · have digits : '\r' ∉ ((Nat.toDigits 10 (shortest mantissa exponent).digits).reverse.dropWhile
        (· == '0')).reverse := by
      rw [List.mem_reverse]
      intro member
      exact not_mem_toDigits (by decide) (by decide) _
        (List.mem_reverse.1 ((List.dropWhile_sublist _).subset member))
    simp only
    split
    · exact not_mem_positional digits _
    · exact not_mem_scientific digits _

theorem not_mem_text {words : SpecialWords} (nan : '\r' ∉ words.nan.toList)
    (infinity : '\r' ∉ words.infinity.toList) (x : Binary64) : '\r' ∉ x.text words := by
  cases x with
  | nan => exact nan
  | infinite negative => cases negative <;> simp [text, infinity]
  | finite negative mantissa exponent =>
      have magnitude := not_mem_magnitudeText mantissa exponent
      cases negative <;> simp [text, magnitude]

end Binary64

namespace Json

theorem not_mem_intText (n : Int) : '\r' ∉ intText n := by
  have digits : '\r' ∉ Nat.toDigits 10 n.natAbs := not_mem_toDigits (by decide) (by decide) _
  unfold intText
  split
  · simp [digits]
  · exact digits

/-! ## Strings -/

theorem not_mem_unitEscape (n : Nat) : '\r' ∉ unitEscape n := by
  have digits : '\r' ∉ Nat.toDigits 16 n := not_mem_toDigits (by decide) (by decide) n
  simp [unitEscape, Text.hex, digits]

theorem not_mem_stringChar (ascii : Bool) (c : Char) : '\r' ∉ stringChar ascii c := by
  by_cases itself : c = '\r'
  · subst itself
    revert ascii
    decide
  · have other : '\r' ≠ c := Ne.symm itself
    unfold stringChar
    repeat' split
    all_goals simp [not_mem_unitEscape, other]

theorem not_mem_stringText (ascii : Bool) (s : String) : '\r' ∉ stringText ascii s := by
  simp only [stringText, List.mem_append, List.mem_cons, List.mem_flatMap, not_or, not_exists,
    not_and]
  exact ⟨⟨by decide, fun c _ => not_mem_stringChar ascii c⟩, by decide⟩

/-! ## Values -/

section

variable (layout : Layout)

theorem not_mem_lineBreak (depth : Nat) : '\r' ∉ layout.lineBreak depth := by
  unfold Layout.lineBreak
  split <;> simp

theorem not_mem_colon : '\r' ∉ layout.colon := by
  unfold Layout.colon
  split <;> decide

mutual

theorem not_mem_renderAt (depth : Nat) (value : Json) : '\r' ∉ renderAt layout depth value := by
  match value with
  | .null => simp [renderAt]
  | .bool true => simp [renderAt]
  | .bool false => simp [renderAt]
  | .int n => exact not_mem_intText n
  | .real x => exact Binary64.not_mem_text (by decide) (by decide) x
  | .string s => exact not_mem_stringText layout.ascii s
  | .array [] => simp [renderAt]
  | .array (item :: rest) =>
      have items := not_mem_renderItems (depth + 1) true (item :: rest)
      have lineBreak := not_mem_lineBreak layout depth
      simp [renderAt, items, lineBreak]
  | .object [] => simp [renderAt]
  | .object (field :: rest) =>
      have fields := not_mem_renderFields (depth + 1) true (field :: rest)
      have lineBreak := not_mem_lineBreak layout depth
      simp [renderAt, fields, lineBreak]

theorem not_mem_renderItems (depth : Nat) (isFirst : Bool) (items : List Json) :
    '\r' ∉ renderItems layout depth isFirst items := by
  match items with
  | [] => exact List.not_mem_nil
  | item :: rest =>
      have first := not_mem_renderAt depth item
      have others := not_mem_renderItems depth false rest
      have lineBreak := not_mem_lineBreak layout depth
      cases isFirst <;> simp [renderItems, first, others, lineBreak]

theorem not_mem_renderFields (depth : Nat) (isFirst : Bool) (fields : List (String × Json)) :
    '\r' ∉ renderFields layout depth isFirst fields := by
  match fields with
  | [] => exact List.not_mem_nil
  | (name, value) :: rest =>
      have first := not_mem_renderAt depth value
      have others := not_mem_renderFields depth false rest
      have lineBreak := not_mem_lineBreak layout depth
      have colon := not_mem_colon layout
      have named := not_mem_stringText layout.ascii name
      cases isFirst <;> simp [renderFields, first, others, lineBreak, colon, named]

end

/-- **A document is written without carriage returns.** -/
theorem not_mem_render (value : Json) : '\r' ∉ render layout value :=
  not_mem_renderAt layout 0 value

end

end Json

end Traceability
