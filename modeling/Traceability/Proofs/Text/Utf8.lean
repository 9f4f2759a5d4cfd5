/-
# Traceability.Proofs.Text.Utf8 -- what is written can be read back

Encoding a text and decoding the octets gives the text back
(`decodeLossy_encode`).  The reader goes through the octets of one character in
at most four steps (`pieces_encodeChar`): the first octet fixes how many follow
and between which bounds, and each further octet adds six bits.

Unified line ends leave no carriage return, and a text without one is read as
it was written (`lossyTextOf_encode`).
-/
import Traceability.FileTree

namespace Traceability.Text.Utf8

set_option autoImplicit false

/-! ## One octet -/

theorem toNat_ofNat_octet {n : Nat} (small : n < 256) : (UInt8.ofNat n).toNat = n := by
  rw [UInt8.toNat_ofNat']
  omega

/-- Six more bits, when they are within the bounds. -/
theorem feed_tail {pending : Pending} {bits : Nat} (six : bits < 64)
    (low : pending.low ≤ 0x80 + bits) (high : 0x80 + bits ≤ pending.high) :
    pending.feed (UInt8.ofNat (0x80 + bits)) =
      if pending.missing ≤ 1 then .finish (Char.ofNat (64 * pending.bits + bits))
      else .wait ⟨64 * pending.bits + bits, pending.missing - 1, 0x80, 0xbf⟩ := by
  have octet : (UInt8.ofNat (0x80 + bits)).toNat = 0x80 + bits := toNat_ofNat_octet (by omega)
  simp only [Pending.feed, octet, low, high, decide_true, Bool.and_self, if_true,
    Nat.add_sub_cancel_left]

theorem start_two {n : Nat} (least : 0x80 ≤ n) (bound : n < 0x800) :
    start (UInt8.ofNat (0xc0 + n / 64)) = .wait ⟨n / 64, 1, 0x80, 0xbf⟩ := by
  have octet : (UInt8.ofNat (0xc0 + n / 64)).toNat = 0xc0 + n / 64 := toNat_ofNat_octet (by omega)
  have above : ¬0xc0 + n / 64 < 0x80 := by omega
  have within : 0xc2 ≤ 0xc0 + n / 64 ∧ 0xc0 + n / 64 ≤ 0xdf := by omega
  simp only [start, octet, above, within, if_false, decide_true, Bool.and_self, if_true,
    Nat.add_sub_cancel_left]

/-- The first of three octets.  The bounds that it sets hold for the second one, because the
character is neither below the range nor a surrogate. -/
theorem start_three {n : Nat} (least : 0x800 ≤ n) (bound : n < 0x10000)
    (valid : n < 0xd800 ∨ 0xdfff < n) :
    ∃ low high, start (UInt8.ofNat (0xe0 + n / 4096)) = .wait ⟨n / 4096, 2, low, high⟩ ∧
      low ≤ 0x80 + n / 64 % 64 ∧ 0x80 + n / 64 % 64 ≤ high := by
  have octet : (UInt8.ofNat (0xe0 + n / 4096)).toNat = 0xe0 + n / 4096 :=
    toNat_ofNat_octet (by omega)
  have ascii : ¬0xe0 + n / 4096 < 0x80 := by omega
  have two : ¬0xe0 + n / 4096 ≤ 0xdf := by omega
  simp only [start, octet, ascii, two, if_false, decide_false, Bool.and_false, Bool.false_eq_true]
  by_cases first : n / 4096 = 0
  · refine ⟨0xa0, 0xbf, ?_, ?_, ?_⟩
    · simp [first]
    · omega
    · omega
  · by_cases surrogates : n / 4096 = 0xd
    · refine ⟨0x80, 0x9f, ?_, ?_, ?_⟩
      · simp [surrogates]
      · omega
      · omega
    · refine ⟨0x80, 0xbf, ?_, ?_, ?_⟩
      · have notFirst : (0xe0 + n / 4096 == 0xe0) = false := by rw [beq_eq_false_iff_ne]; omega
        have notSurrogates : (0xe0 + n / 4096 == 0xed) = false := by
          rw [beq_eq_false_iff_ne]
          omega
        have within : 0xe1 ≤ 0xe0 + n / 4096 ∧ 0xe0 + n / 4096 ≤ 0xef := by omega
        simp only [notFirst, notSurrogates, within, decide_true, Bool.and_self, if_true,
          Bool.false_eq_true, if_false, Nat.add_sub_cancel_left]
      · omega
      · omega

theorem start_four {n : Nat} (least : 0x10000 ≤ n) (bound : n < 0x110000) :
    ∃ low high, start (UInt8.ofNat (0xf0 + n / 262144)) = .wait ⟨n / 262144, 3, low, high⟩ ∧
      low ≤ 0x80 + n / 4096 % 64 ∧ 0x80 + n / 4096 % 64 ≤ high := by
  have octet : (UInt8.ofNat (0xf0 + n / 262144)).toNat = 0xf0 + n / 262144 :=
    toNat_ofNat_octet (by omega)
  have ascii : ¬0xf0 + n / 262144 < 0x80 := by omega
  have two : ¬0xf0 + n / 262144 ≤ 0xdf := by omega
  have three : ¬0xf0 + n / 262144 ≤ 0xef := by omega
  have notThree : (0xf0 + n / 262144 == 0xe0) = false ∧ (0xf0 + n / 262144 == 0xed) = false := by
    rw [beq_eq_false_iff_ne, beq_eq_false_iff_ne]
    omega
  simp only [start, octet, ascii, two, three, notThree, if_false, decide_false, Bool.and_false,
    Bool.false_eq_true]
  have planes : n / 262144 = 0 ∨ n / 262144 = 4 ∨ (1 ≤ n / 262144 ∧ n / 262144 ≤ 3) := by omega
  rcases planes with first | last | between
  · refine ⟨0x90, 0xbf, ?_, ?_, ?_⟩
    · simp [first]
    · omega
    · omega
  · refine ⟨0x80, 0x8f, ?_, ?_, ?_⟩
    · simp [last]
    · omega
    · omega
  · refine ⟨0x80, 0xbf, ?_, ?_, ?_⟩
    · have notFirst : (0xf0 + n / 262144 == 0xf0) = false := by rw [beq_eq_false_iff_ne]; omega
      have within : 0xf1 ≤ 0xf0 + n / 262144 ∧ 0xf0 + n / 262144 ≤ 0xf3 := by omega
      simp only [notFirst, within, decide_true, Bool.and_self, if_true, Bool.false_eq_true,
        if_false, Nat.add_sub_cancel_left]
    · omega
    · omega

/-! ## One character -/

theorem pieces_start_wait {octet : UInt8} {pending : Pending} (waits : start octet = .wait pending)
    (rest : List UInt8) : pieces none (octet :: rest) = pieces (some pending) rest := by
  rw [pieces, waits]

/-- A further octet that is not the last one. -/
theorem pieces_tail {pending : Pending} {bits : Nat} (six : bits < 64)
    (low : pending.low ≤ 0x80 + bits) (high : 0x80 + bits ≤ pending.high)
    (more : 1 < pending.missing) (rest : List UInt8) :
    pieces (some pending) (UInt8.ofNat (0x80 + bits) :: rest) =
      pieces (some ⟨64 * pending.bits + bits, pending.missing - 1, 0x80, 0xbf⟩) rest := by
  rw [pieces, feed_tail six low high, if_neg (by omega)]

/-- The last octet. -/
theorem pieces_last {pending : Pending} {bits : Nat} (six : bits < 64)
    (low : pending.low ≤ 0x80 + bits) (high : 0x80 + bits ≤ pending.high)
    (last : pending.missing = 1) (rest : List UInt8) :
    pieces (some pending) (UInt8.ofNat (0x80 + bits) :: rest) =
      some (Char.ofNat (64 * pending.bits + bits)) :: pieces none rest := by
  rw [pieces, feed_tail six low high, if_pos (by omega)]

theorem pieces_encodeChar (c : Char) (rest : List UInt8) :
    pieces none (encodeChar c ++ rest) = some c :: pieces none rest := by
  -- Not being a surrogate matters for three octets, not being too large for four.
  have valid : c.toNat < 0xd800 ∨ 0xdfff < c.toNat ∧ c.toNat < 0x110000 := c.valid
  have back : ∀ bits, bits = c.toNat → Char.ofNat bits = c := by
    rintro bits rfl
    exact Char.ofNat_toNat c
  simp only [encodeChar, Nat.div_one]
  split
  · rename_i one
    have octet : (UInt8.ofNat c.toNat).toNat = c.toNat := toNat_ofNat_octet (by omega)
    have ends : start (UInt8.ofNat c.toNat) = .finish c := by
      simp only [start, octet, one, if_true, back]
    simp only [List.cons_append, List.nil_append]
    rw [pieces, ends]
  · split
    · rename_i least bound
      simp only [List.cons_append, List.nil_append]
      rw [pieces_start_wait (start_two (by omega) bound),
        pieces_last (by omega) (by simp only; omega) (by simp only; omega) rfl]
      rw [back _ (by simp only; omega)]
    · split
      · rename_i least bound
        obtain ⟨low, high, begun, aboveLow, belowHigh⟩ :=
          start_three (by omega) bound (by omega)
        simp only [List.cons_append, List.nil_append]
        rw [pieces_start_wait begun, pieces_tail (by omega) aboveLow belowHigh (by simp),
          pieces_last (by omega) (by simp only; omega) (by simp only; omega) rfl]
        rw [back _ (by simp only; omega)]
      · rename_i least
        obtain ⟨low, high, begun, aboveLow, belowHigh⟩ := start_four (by omega : 0x10000 ≤ c.toNat)
          (by omega)
        simp only [List.cons_append, List.nil_append]
        rw [pieces_start_wait begun, pieces_tail (by omega) aboveLow belowHigh (by simp),
          pieces_tail (by omega) (by simp only; omega) (by simp only; omega) (by simp),
          pieces_last (by omega) (by simp only; omega) (by simp only; omega) rfl]
        rw [back _ (by simp only; omega)]

/-! ## Texts -/

theorem pieces_encode (text : Text) : pieces none (encode text) = text.map some := by
  induction text with
  | nil => rfl
  | cons c rest ih =>
      rw [encode, List.flatMap_cons, pieces_encodeChar, List.map_cons]
      exact congrArg (some c :: ·) ih

/-- **Octets that were written are read as the text they were written for.** -/
theorem decodeLossy_encode (text : Text) : decodeLossy (encode text) = text := by
  rw [decodeLossy, pieces_encode, List.map_map]
  exact List.map_id text

/-- Octets are UTF-8 when no place among them is ill-formed. -/
theorem decode?_eq_some_iff {octets : List UInt8} {text : Text} :
    decode? octets = some text ↔ pieces none octets = text.map some := by
  rw [decode?]
  induction pieces none octets generalizing text with
  | nil => cases text <;> simp
  | cons piece rest ih =>
      rw [List.mapM_cons]
      cases piece with
      | none => cases text <;> simp
      | some c =>
          cases text with
          | nil => simp [Option.bind_eq_some_iff]
          | cons d others =>
              simp only [id_eq, Option.bind_eq_bind, Option.bind_some, Option.bind_eq_some_iff,
                Option.pure_def, Option.some.injEq, List.cons.injEq, List.map_cons, ih]
              constructor
              · rintro ⟨_, read, same, rfl⟩
                exact ⟨same, read⟩
              · rintro ⟨same, read⟩
                exact ⟨others, read, same, rfl⟩

theorem decode?_encode (text : Text) : decode? (encode text) = some text :=
  decode?_eq_some_iff.2 (pieces_encode text)

/-- Both readings of UTF-8 octets agree. -/
theorem decodeLossy_of_decode? {octets : List UInt8} {text : Text}
    (read : decode? octets = some text) : decodeLossy octets = text := by
  rw [decodeLossy, decode?_eq_some_iff.1 read, List.map_map]
  exact List.map_id text

end Traceability.Text.Utf8

namespace Traceability.Text

set_option autoImplicit false

/-! ## Line ends -/

theorem not_mem_unifyLineEnds (text : Text) : '\r' ∉ text.unifyLineEnds := by
  fun_induction unifyLineEnds text with
  | case1 => exact List.not_mem_nil
  | case2 rest ih => simpa using ih
  | case3 c rest _ ih =>
      simp only [List.mem_cons, not_or]
      refine ⟨?_, ih⟩
      split
      · decide
      · rename_i other
        exact fun same => other same.symm

theorem unifyLineEnds_of_not_mem {text : Text} (free : '\r' ∉ text) :
    text.unifyLineEnds = text := by
  fun_induction unifyLineEnds text with
  | case1 => rfl
  | case2 rest ih => exact absurd List.mem_cons_self free
  | case3 c rest _ ih =>
      simp only [List.mem_cons, not_or] at free
      rw [ih free.2, if_neg (Ne.symm free.1)]

end Traceability.Text

namespace Traceability.FileTree

set_option autoImplicit false

theorem not_mem_lossyTextOf (octets : List UInt8) : '\r' ∉ lossyTextOf octets :=
  Text.not_mem_unifyLineEnds _

theorem not_mem_of_textOf? {octets : List UInt8} {text : Text} (read : textOf? octets = some text) :
    '\r' ∉ text := by
  obtain ⟨decoded, -, rfl⟩ := Option.map_eq_some_iff.1 read
  exact Text.not_mem_unifyLineEnds decoded

/-- Both readings of a UTF-8 file agree. -/
theorem lossyTextOf_of_textOf? {octets : List UInt8} {text : Text}
    (read : textOf? octets = some text) : lossyTextOf octets = text := by
  obtain ⟨decoded, decodes, rfl⟩ := Option.map_eq_some_iff.1 read
  rw [lossyTextOf, Text.Utf8.decodeLossy_of_decode? decodes]

theorem textOf?_encode {text : Text} (free : '\r' ∉ text) :
    textOf? (Text.Utf8.encode text) = some text := by
  rw [textOf?, Text.Utf8.decode?_encode, Option.map_some, Text.unifyLineEnds_of_not_mem free]

/-- A file without carriage returns is read as it was written. -/
theorem lossyTextOf_encode {text : Text} (free : '\r' ∉ text) :
    lossyTextOf (Text.Utf8.encode text) = text := by
  rw [lossyTextOf, Text.Utf8.decodeLossy_encode, Text.unifyLineEnds_of_not_mem free]

end Traceability.FileTree
