/-
# Traceability.Proofs.Text.Decoding -- UTF-8 has one spelling for each text

Octets that are read strictly are the octets that the text is written as
(`encode_of_decode?`), so nothing is lost by reading a file and writing it again.
One character is taken at a time (`octets_eq_encodeChar_append`).  What its first
octet fixes is said once (`Opens`): the bounds of the second octet leave exactly
the characters that need as many octets as there are.
-/
import Traceability.Proofs.Text.Utf8

namespace Traceability.Text.Utf8

set_option autoImplicit false

/-! ## The octets after the first -/

theorem feed_eq_finish {pending : Pending} {octet : UInt8} {c : Char}
    (ends : pending.feed octet = .finish c) :
    pending.low ≤ octet.toNat ∧ octet.toNat ≤ pending.high ∧ pending.missing ≤ 1 ∧
      c = Char.ofNat (64 * pending.bits + (octet.toNat - 0x80)) := by
  simp only [Pending.feed, Bool.and_eq_true, decide_eq_true_eq] at ends
  split at ends
  · rename_i within
    split at ends
    · rename_i last
      exact ⟨within.1, within.2, last, (Step.finish.inj ends).symm⟩
    · exact Step.noConfusion ends
  · exact Step.noConfusion ends

theorem feed_eq_wait {pending next : Pending} {octet : UInt8}
    (waits : pending.feed octet = .wait next) :
    pending.low ≤ octet.toNat ∧ octet.toNat ≤ pending.high ∧ 1 < pending.missing ∧
      next = ⟨64 * pending.bits + (octet.toNat - 0x80), pending.missing - 1, 0x80, 0xbf⟩ := by
  simp only [Pending.feed, Bool.and_eq_true, decide_eq_true_eq] at waits
  split at waits
  · rename_i within
    split at waits
    · exact Step.noConfusion waits
    · rename_i more
      exact ⟨within.1, within.2, by omega, (Step.wait.inj waits).symm⟩
  · exact Step.noConfusion waits

/-- A character that has been read in part is read on: the next octet ends it, or one more follows. -/
theorem pieces_some_eq_cons {pending : Pending} {octets : List UInt8} {c : Char}
    {others : List (Option Char)} (read : pieces (some pending) octets = some c :: others) :
    ∃ octet rest, octets = octet :: rest ∧
      (pending.feed octet = .finish c ∧ pieces none rest = others ∨
        ∃ next, pending.feed octet = .wait next ∧ pieces (some next) rest = some c :: others) := by
  cases octets with
  | nil => simp [pieces] at read
  | cons octet rest =>
      refine ⟨octet, rest, rfl, ?_⟩
      rw [pieces] at read
      split at read
      · rename_i found ends
        simp only [List.cons.injEq, Option.some.injEq] at read
        rw [read.1] at ends
        exact Or.inl ⟨ends, read.2⟩
      · rename_i next waits
        exact Or.inr ⟨next, waits, read⟩
      · simp at read

/-- The last octet of a character. -/
theorem exists_last_octet {pending : Pending} {octets : List UInt8} {c : Char}
    {others : List (Option Char)} (last : pending.missing ≤ 1)
    (read : pieces (some pending) octets = some c :: others) :
    ∃ octet rest, octets = octet :: rest ∧ pending.low ≤ octet.toNat ∧ octet.toNat ≤ pending.high ∧
      c = Char.ofNat (64 * pending.bits + (octet.toNat - 0x80)) ∧ pieces none rest = others := by
  obtain ⟨octet, rest, rfl, ⟨ends, after⟩ | ⟨next, waits, -⟩⟩ := pieces_some_eq_cons read
  · obtain ⟨low, high, -, found⟩ := feed_eq_finish ends
    exact ⟨octet, rest, rfl, low, high, found, after⟩
  · obtain ⟨-, -, more, -⟩ := feed_eq_wait waits
    omega

/-- An octet of a character that is neither the first nor the last one. -/
theorem exists_next_octet {pending : Pending} {octets : List UInt8} {c : Char}
    {others : List (Option Char)} (more : 1 < pending.missing)
    (read : pieces (some pending) octets = some c :: others) :
    ∃ octet rest, octets = octet :: rest ∧ pending.low ≤ octet.toNat ∧ octet.toNat ≤ pending.high ∧
      pieces (some ⟨64 * pending.bits + (octet.toNat - 0x80), pending.missing - 1, 0x80, 0xbf⟩) rest =
        some c :: others := by
  obtain ⟨octet, rest, rfl, ⟨ends, -⟩ | ⟨next, waits, after⟩⟩ := pieces_some_eq_cons read
  · obtain ⟨-, -, last, -⟩ := feed_eq_finish ends
    omega
  · obtain ⟨low, high, -, rfl⟩ := feed_eq_wait waits
    exact ⟨octet, rest, rfl, low, high, after⟩

/-! ## The first octet -/

/-- What the first octet of a character fixes: its first bits, how many octets follow, and bounds of
the second one that refuse over-long forms, surrogates and numbers past the last code point. -/
inductive Opens (n : Nat) : Pending → Prop where
  | two {bits : Nat} (first : n = 0xc0 + bits) (least : 2 ≤ bits) (most : bits < 32) :
      Opens n ⟨bits, 1, 0x80, 0xbf⟩
  | three {bits low high : Nat} (first : n = 0xe0 + bits) (most : bits < 16) (lowest : 0x80 ≤ low)
      (highest : high ≤ 0xbf) (long : bits = 0 → 0xa0 ≤ low) (valid : bits = 0xd → high ≤ 0x9f) :
      Opens n ⟨bits, 2, low, high⟩
  | four {bits low high : Nat} (first : n = 0xf0 + bits) (most : bits ≤ 4) (lowest : 0x80 ≤ low)
      (highest : high ≤ 0xbf) (long : bits = 0 → 0x90 ≤ low) (valid : bits = 4 → high ≤ 0x8f) :
      Opens n ⟨bits, 3, low, high⟩

/-- What the reader does with the first octet of a character. -/
theorem start_spec (octet : UInt8) :
    octet.toNat < 0x80 ∧ start octet = .finish (Char.ofNat octet.toNat) ∨
      start octet = .refuse ∨ ∃ pending, start octet = .wait pending ∧ Opens octet.toNat pending := by
  simp only [start, Bool.and_eq_true, decide_eq_true_eq, beq_iff_eq]
  generalize octet.toNat = n
  by_cases ascii : n < 0x80
  · exact Or.inl ⟨ascii, if_pos ascii⟩
  rw [if_neg ascii]
  refine Or.inr ?_
  by_cases two : 0xc2 ≤ n ∧ n ≤ 0xdf
  · exact Or.inr ⟨_, if_pos two, .two (by omega) (by omega) (by omega)⟩
  rw [if_neg two]
  by_cases short : n = 0xe0
  · exact Or.inr ⟨_, if_pos short, .three (by omega) (by omega) (by omega) (by omega)
      (fun _ => by omega) (fun _ => by omega)⟩
  rw [if_neg short]
  by_cases surrogates : n = 0xed
  · exact Or.inr ⟨_, if_pos surrogates, .three (by omega) (by omega) (by omega) (by omega)
      (fun _ => by omega) (fun _ => by omega)⟩
  rw [if_neg surrogates]
  by_cases three : 0xe1 ≤ n ∧ n ≤ 0xef
  · exact Or.inr ⟨_, if_pos three, .three (by omega) (by omega) (by omega) (by omega)
      (fun _ => by omega) (fun _ => by omega)⟩
  rw [if_neg three]
  by_cases first : n = 0xf0
  · exact Or.inr ⟨_, if_pos first, .four (by omega) (by omega) (by omega) (by omega)
      (fun _ => by omega) (fun _ => by omega)⟩
  rw [if_neg first]
  by_cases between : 0xf1 ≤ n ∧ n ≤ 0xf3
  · exact Or.inr ⟨_, if_pos between, .four (by omega) (by omega) (by omega) (by omega)
      (fun _ => by omega) (fun _ => by omega)⟩
  rw [if_neg between]
  by_cases last : n = 0xf4
  · exact Or.inr ⟨_, if_pos last, .four (by omega) (by omega) (by omega) (by omega)
      (fun _ => by omega) (fun _ => by omega)⟩
  · exact Or.inl (if_neg last)

/-! ## One character -/

theorem toNat_ofNat_char {n : Nat} (valid : n < 0xd800 ∨ 0xdfff < n ∧ n < 0x110000) :
    (Char.ofNat n).toNat = n := by
  have valid' : n.isValidChar := valid
  rw [Char.ofNat, dif_pos valid']
  rfl

theorem ofNat_of_toNat_eq {octet : UInt8} {n : Nat} (same : octet.toNat = n) :
    UInt8.ofNat n = octet := by
  rw [← same]
  exact UInt8.ofNat_toNat

/-- **A character is read from its own octets only.** -/
theorem octets_eq_encodeChar_append {octets : List UInt8} {c : Char} {others : List (Option Char)}
    (read : pieces none octets = some c :: others) :
    ∃ rest, octets = encodeChar c ++ rest ∧ pieces none rest = others := by
  cases octets with
  | nil => simp [pieces] at read
  | cons octet tail =>
      rw [pieces] at read
      rcases start_spec octet with ⟨ascii, ends⟩ | refused | ⟨pending, waits, opens⟩
      · rw [ends] at read
        simp only [List.cons.injEq, Option.some.injEq] at read
        refine ⟨tail, ?_, read.2⟩
        have code : c.toNat = octet.toNat := by
          rw [← read.1, toNat_ofNat_char (Or.inl (by omega))]
        simp only [encodeChar, code, if_pos ascii, List.cons_append, List.nil_append, UInt8.ofNat_toNat]
      · rw [refused] at read
        simp at read
      · rw [waits] at read
        cases opens with
        | @two bits first least most =>
            obtain ⟨second, rest, rfl, low, high, found, after⟩ := exists_last_octet (by simp) read
            simp only at low high
            refine ⟨rest, ?_, after⟩
            have code : c.toNat = 64 * bits + (second.toNat - 0x80) := by
              rw [found, toNat_ofNat_char (Or.inl (by simp only; omega))]
            have one : UInt8.ofNat (0xc0 + c.toNat / 64) = octet := ofNat_of_toNat_eq (by omega)
            have two : UInt8.ofNat (0x80 + c.toNat / 1 % 64) = second := ofNat_of_toNat_eq (by omega)
            simp only [encodeChar]
            rw [if_neg (by omega), if_pos (by omega), one, two, List.cons_append, List.cons_append,
              List.nil_append]
        | @three bits low high first most lowest highest long valid =>
            obtain ⟨second, tail, rfl, above, below, further⟩ := exists_next_octet (by simp) read
            obtain ⟨third, rest, rfl, low, high, found, after⟩ := exists_last_octet (by simp) further
            simp only at above below low high found
            refine ⟨rest, ?_, after⟩
            have code : c.toNat =
                64 * (64 * bits + (second.toNat - 0x80)) + (third.toNat - 0x80) := by
              rw [found, toNat_ofNat_char (by omega)]
            have one : UInt8.ofNat (0xe0 + c.toNat / 4096) = octet := ofNat_of_toNat_eq (by omega)
            have two : UInt8.ofNat (0x80 + c.toNat / 64 % 64) = second :=
              ofNat_of_toNat_eq (by omega)
            have three : UInt8.ofNat (0x80 + c.toNat / 1 % 64) = third := ofNat_of_toNat_eq (by omega)
            simp only [encodeChar]
            rw [if_neg (by omega), if_neg (by omega), if_pos (by omega), one, two, three]
            rfl
        | @four bits low high first most lowest highest long valid =>
            obtain ⟨second, tail, rfl, above, below, further⟩ := exists_next_octet (by simp) read
            obtain ⟨third, tail, rfl, aboveToo, belowToo, furthest⟩ :=
              exists_next_octet (by simp) further
            obtain ⟨fourth, rest, rfl, low, high, found, after⟩ := exists_last_octet (by simp) furthest
            simp only at above below aboveToo belowToo low high found
            refine ⟨rest, ?_, after⟩
            have code : c.toNat =
                64 * (64 * (64 * bits + (second.toNat - 0x80)) + (third.toNat - 0x80)) +
                  (fourth.toNat - 0x80) := by
              rw [found, toNat_ofNat_char (by omega)]
            have one : UInt8.ofNat (0xf0 + c.toNat / 262144) = octet := ofNat_of_toNat_eq (by omega)
            have two : UInt8.ofNat (0x80 + c.toNat / 4096 % 64) = second :=
              ofNat_of_toNat_eq (by omega)
            have three : UInt8.ofNat (0x80 + c.toNat / 64 % 64) = third :=
              ofNat_of_toNat_eq (by omega)
            have four : UInt8.ofNat (0x80 + c.toNat / 1 % 64) = fourth :=
              ofNat_of_toNat_eq (by omega)
            simp only [encodeChar]
            rw [if_neg (by omega), if_neg (by omega), if_neg (by omega), one, two, three, four]
            rfl

/-! ## Texts -/

theorem encode_append (front back : Text) :
    encode (front ++ back) = encode front ++ encode back :=
  List.flatMap_append

/-- A character that has been read in part comes to something. -/
theorem pieces_some_ne_nil (pending : Pending) (octets : List UInt8) :
    pieces (some pending) octets ≠ [] := by
  induction octets generalizing pending with
  | nil => simp [pieces]
  | cons octet rest ih =>
      rw [pieces]
      split
      · simp
      · exact ih _
      · simp

theorem pieces_none_cons_ne_nil (octet : UInt8) (rest : List UInt8) :
    pieces none (octet :: rest) ≠ [] := by
  rw [pieces]
  split
  · simp
  · exact pieces_some_ne_nil _ rest
  · simp

/-- **UTF-8 has one spelling for each text**: octets that are read strictly are those that the text is
written as. -/
theorem encode_of_decode? {octets : List UInt8} {text : Text} (read : decode? octets = some text) :
    encode text = octets := by
  rw [decode?_eq_some_iff] at read
  induction text generalizing octets with
  | nil =>
      cases octets with
      | nil => rfl
      | cons octet rest => exact absurd read (pieces_none_cons_ne_nil octet rest)
  | cons c text ih =>
      obtain ⟨rest, split, after⟩ := octets_eq_encodeChar_append read
      rw [encode, List.flatMap_cons, split]
      exact congrArg (encodeChar c ++ ·) (ih after)

end Traceability.Text.Utf8
