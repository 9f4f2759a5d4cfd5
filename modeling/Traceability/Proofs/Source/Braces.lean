/-
# Traceability.Proofs.Source.Braces -- a construct in braces ends with its own block

Whether a construct in braces goes on behind a line may depend on the lines below:
as long as no brace has been opened, the scan looks for the next line that is not
blank (`bodyFollows`).  It looks no further than that line, and blank lines are no
code, so a block that closes its braces has such a line wherever the scan has to
look for it (`exists_visible_of_balanceAfter`).  A block that closes its braces, or
that comes to a semicolon before it opens one, therefore is the whole construct
whatever stands behind it (`bracedLengthFrom_append`), and with that the lines
around it have no influence on the construct (`construct_around_braces`).

It is different for a construct that ends because no body follows, or because the
lines do: a brace put behind it takes it further (`endsItself_iff`).
-/
import Traceability.Proofs.Source.Surroundings

namespace Traceability

set_option autoImplicit false

/-! ## Code of a line -/

/-- The code of a line is what is left when some of its characters are taken out. -/
theorem bareCode_sublist (quotes : Text) (region : CodeRegion) (line : Text) :
    (bareCode quotes region line).1.Sublist line := by
  fun_induction bareCode quotes region line with
  | case1 | case4 | case9 | case12 => exact List.Sublist.refl []
  | case5 | case13 => exact List.nil_sublist _
  | case2 rest ih | case7 quote d rest _ ih | case14 rest ih => exact (ih.cons _).cons _
  | case3 c rest _ ih | case6 c d rest ih | case8 quote c d rest _ _ ih | case10 c rest ih
  | case11 more c rest ih | case15 c rest _ _ _ ih | case16 c rest _ _ _ more _ ih => exact ih.cons _
  | case17 c rest _ _ _ _ later ih => exact ih.cons_cons c

/-! ## Balance of braces -/

/-- Braces have been opened, and all of them are closed. -/
def Balance.isClosed (b : Balance) : Bool := b.opened && b.braces ≤ 0

/-- Blanks change no balance. -/
theorem Balance.scan_of_blank (b : Balance) {code : Text}
    (blank : ∀ c ∈ code, Text.isBlank c = true) : b.scan code = some b := by
  induction code with
  | nil => rfl
  | cons c rest ih =>
      obtain ⟨here, later⟩ := List.forall_mem_cons.1 blank
      have no : ∀ mark, Text.isBlank mark = false → c ≠ mark := fun _ => Text.ne_of_isBlank here
      have step : b.step c = b := by
        simp [step, no '\x7b' (by decide), no '\x7d' (by decide), no '(' (by decide),
          no '[' (by decide), no ')' (by decide), no ']' (by decide)]
      rw [scan, step, ih later]
      simp [no ';' (by decide)]

/-- The balance behind the code of some lines, or `none` if a semicolon in it ends the construct
before its body. -/
def balanceAfter (quotes : Text) : Balance → (inComment : Bool) → List Text → Option Balance
  | b, _, [] => some b
  | b, inComment, line :: rest =>
      let (code, inComment) := bareCode quotes (if inComment then .blockComment else .code) line
      match b.scan code with
      | none => none
      | some b => balanceAfter quotes b inComment rest

theorem balanceAfter_of_blank {quotes : Text} {b : Balance} {inComment : Bool} {lines : List Text}
    (blank : ∀ line ∈ lines, line.isBlankText = true) :
    balanceAfter quotes b inComment lines = some b := by
  induction lines generalizing inComment with
  | nil => rfl
  | cons line rest ih =>
      obtain ⟨here, later⟩ := List.forall_mem_cons.1 blank
      have code : ∀ c ∈ (bareCode quotes (if inComment then .blockComment else .code) line).1,
          Text.isBlank c = true := fun c member =>
        List.all_eq_true.1 here c ((bareCode_sublist _ _ _).subset member)
      simp only [balanceAfter, b.scan_of_blank code]
      exact ih later

/-- Lines that close braces are not all blank. -/
theorem exists_visible_of_balanceAfter {quotes : Text} {b : Balance} {inComment : Bool}
    {lines : List Text} (unclosed : b.isClosed = false)
    (closes : (balanceAfter quotes b inComment lines).all Balance.isClosed = true) :
    ∃ line ∈ lines, line.isBlankText = false := by
  cases blank : lines.all Text.isBlankText with
  | true =>
      rw [balanceAfter_of_blank (List.all_eq_true.1 blank), Option.all_some, unclosed] at closes
      exact nomatch closes
  | false =>
      obtain ⟨line, member, visible⟩ := List.all_eq_false.1 blank
      exact ⟨line, member, Bool.eq_false_iff.2 visible⟩

/-! ## Extents -/

/-- Behind the first line that is not blank nothing is looked at. -/
theorem bodyFollows_append {lines : List Text}
    (visible : ∃ line ∈ lines, line.isBlankText = false) (after : List Text) :
    bodyFollows (lines ++ after) = bodyFollows lines := by
  induction lines with
  | nil =>
      obtain ⟨line, member, -⟩ := visible
      exact absurd member List.not_mem_nil
  | cons line rest ih =>
      unfold bodyFollows at ih ⊢
      cases blank : line.isBlankText with
      | true =>
          have later : ∃ line ∈ rest, line.isBlankText = false := by
            obtain ⟨other, member, visible⟩ := visible
            rcases List.mem_cons.1 member with rfl | below
            · rw [blank] at visible
              exact nomatch visible
            · exact ⟨other, below, visible⟩
          rw [List.cons_append, List.dropWhile_cons_of_pos blank, List.dropWhile_cons_of_pos blank]
          exact ih later
      | false =>
          have stops : ¬line.isBlankText = true := by rw [blank]; exact Bool.false_ne_true
          rw [List.cons_append, List.dropWhile_cons_of_neg stops, List.dropWhile_cons_of_neg stops]

/-- What one line does.  Either it is the last one, and its code ends the construct; or the scan goes
on behind it with braces unclosed, except that, if it has no body yet, it may stop when none
follows. -/
theorem bracedLengthFrom_step (quotes : Text) (b : Balance) (inComment inWhere : Bool)
    (line : Text) :
    (balanceAfter quotes b inComment [line]).all Balance.isClosed = true ∧
        (∀ rest, bracedLengthFrom quotes b inComment inWhere (line :: rest) = 1) ∨
      ∃ next comment where_ bodiless, next.isClosed = false ∧
        ∀ rest, balanceAfter quotes b inComment (line :: rest) =
            balanceAfter quotes next comment rest ∧
          bracedLengthFrom quotes b inComment inWhere (line :: rest) =
            if bodiless && !bodyFollows rest then 1
            else 1 + bracedLengthFrom quotes next comment where_ rest := by
  simp only [bracedLengthFrom, balanceAfter]
  generalize bareCode quotes (if inComment then .blockComment else .code) line = read
  cases scanned : b.scan read.1 with
  | none => exact Or.inl ⟨rfl, fun _ => rfl⟩
  | some next =>
      cases closed : next.isClosed with
      | true => exact Or.inl ⟨closed, fun _ => if_pos closed⟩
      | false =>
          let where_ := inWhere || read.1.trim.startsWith "where".toList
          refine Or.inr ⟨next, read.2, where_, !next.opened && next.brackets ≤ 0 && !where_ &&
            !openEnds.any read.1.trimRight.endsWith, closed, fun rest => ⟨rfl, ?_⟩⟩
          exact if_neg (Bool.eq_false_iff.1 closed)

/-- A block that closes its braces is the whole construct, whatever stands behind it. -/
theorem bracedLengthFrom_append {quotes : Text} {b : Balance} {inComment inWhere : Bool}
    {block after : List Text} (unclosed : b.isClosed = false)
    (closes : (balanceAfter quotes b inComment block).all Balance.isClosed = true)
    (extent : bracedLengthFrom quotes b inComment inWhere (block ++ after) = block.length)
    (others : List Text) :
    bracedLengthFrom quotes b inComment inWhere (block ++ others) = block.length := by
  induction block generalizing b inComment inWhere with
  | nil =>
      obtain ⟨line, member, -⟩ := exists_visible_of_balanceAfter unclosed closes
      exact absurd member List.not_mem_nil
  | cons line rest ih =>
      rw [List.cons_append] at extent ⊢
      rcases bracedLengthFrom_step quotes b inComment inWhere line with
        ⟨-, last⟩ | ⟨next, comment, where_, bodiless, unclosed, step⟩
      · rw [last] at extent ⊢
        exact extent
      · rw [(step rest).1] at closes
        -- The next line that is not blank is one of the block.
        have visible := exists_visible_of_balanceAfter unclosed closes
        rw [(step (rest ++ after)).2, bodyFollows_append visible] at extent
        rw [(step (rest ++ others)).2, bodyFollows_append visible]
        split at extent
        · obtain ⟨below, member, -⟩ := visible
          have nonempty := List.length_pos_of_mem member
          rw [List.length_cons] at extent
          omega
        · rename_i goesOn
          rw [List.length_cons, Nat.add_comm] at extent ⊢
          rw [if_neg goesOn, ih unclosed closes (Nat.add_right_cancel extent), Nat.add_comm]

/-- A brace is the beginning of a body. -/
theorem bodyFollows_brace {lines after : List Text} (follows : bodyFollows (lines ++ after) = true) :
    bodyFollows (lines ++ [['\x7b']]) = true := by
  cases blank : lines.all Text.isBlankText with
  | true =>
      rw [bodyFollows, List.dropWhile_append_of_pos (List.all_eq_true.1 blank)]
      decide
  | false =>
      obtain ⟨line, member, visible⟩ := List.all_eq_false.1 blank
      have visible : ∃ line ∈ lines, line.isBlankText = false :=
        ⟨line, member, Bool.eq_false_iff.2 visible⟩
      rwa [bodyFollows_append visible] at follows ⊢

/-- A block that does not close its braces goes on at a brace that is put behind it. -/
theorem lt_bracedLengthFrom_brace {quotes : Text} {b : Balance} {inComment inWhere : Bool}
    {block after : List Text} (nonempty : block ≠ [])
    (open_ : (balanceAfter quotes b inComment block).all Balance.isClosed = false)
    (extent : bracedLengthFrom quotes b inComment inWhere (block ++ after) = block.length) :
    block.length < bracedLengthFrom quotes b inComment inWhere (block ++ [['\x7b']]) := by
  induction block generalizing b inComment inWhere with
  | nil => exact absurd rfl nonempty
  | cons line rest ih =>
      rw [List.cons_append, List.length_cons] at extent
      rw [List.cons_append, List.length_cons]
      rcases bracedLengthFrom_step quotes b inComment inWhere line with
        ⟨closes, last⟩ | ⟨next, comment, where_, bodiless, -, step⟩
      · rw [last] at extent
        have alone : rest = [] := List.eq_nil_of_length_eq_zero (by omega)
        rw [alone, closes] at open_
        exact nomatch open_
      · rw [(step rest).1] at open_
        rw [(step (rest ++ after)).2] at extent
        rw [(step (rest ++ [['\x7b']])).2]
        cases rest with
        | nil =>
            -- Behind the last line the scan meets the brace.
            have counted := bracedLengthFrom_pos quotes next comment where_ ['\x7b'] []
            rw [List.nil_append, show bodyFollows [['\x7b']] = true by decide, Bool.not_true,
              Bool.and_false, if_neg Bool.false_ne_true, List.length_nil]
            omega
        | cons below rest =>
            split at extent
            · exact absurd extent (by rw [List.length_cons]; omega)
            · rename_i goesOn
              have brace : ¬(bodiless && !bodyFollows (below :: rest ++ [['\x7b']])) = true := by
                intro stops
                obtain ⟨bare, none⟩ := Bool.and_eq_true_iff.1 stops
                apply goesOn
                cases follows : bodyFollows (below :: rest ++ after) with
                | true =>
                    rw [bodyFollows_brace follows] at none
                    exact nomatch none
                | false =>
                    rw [bare]
                    rfl
              rw [Nat.add_comm 1] at extent
              have later := ih (List.cons_ne_nil below rest) open_ (Nat.add_right_cancel extent)
              rw [if_neg brace]
              omega

/-- Does the code of a block end the construct that it belongs to?  Its braces are closed, or it comes
to a semicolon before it opens one. -/
def endsItself (quotes : Text) (block : List Text) : Bool :=
  (balanceAfter quotes ⟨0, 0, false⟩ false block).all Balance.isClosed

/-- **A construct in braces is as long whatever stands behind it, exactly if it ends itself.** -/
theorem endsItself_iff {family : Family} (braces : family ≠ .python) {block after : List Text}
    (nonempty : block ≠ []) (extent : extentLength family (block ++ after) = block.length) :
    endsItself family.quotes block = true ↔
      ∀ others, extentLength family (block ++ others) = block.length := by
  have measured : ∀ lines, extentLength family lines = bracedLength family.quotes lines := by
    cases family with
    | python => exact absurd rfl braces
    | rust | go | js | c => exact fun _ => rfl
  simp only [measured, bracedLength] at extent ⊢
  constructor
  · exact fun ends => bracedLengthFrom_append rfl ends extent
  · intro same
    rw [← Bool.not_eq_false]
    intro open_
    have longer := lt_bracedLengthFrom_brace nonempty open_ extent
    rw [same] at longer
    exact absurd longer (Nat.lt_irrefl _)

/-! ## Constructs in braces -/

/-- A declaration whose block ends itself is found again around its block. -/
theorem Declaration.stays_of_endsItself {family : Family} (braces : family ≠ .python)
    {lines : List Text} {declaration : Declaration}
    (member : declaration ∈ declarations family lines)
    (ends : endsItself family.quotes (declaration.block lines) = true) (before after : List Text) :
    declaration.movedTo before.length ∈
        declarations family (before ++ declaration.block lines ++ after) ∧
      (declaration.movedTo before.length).block (before ++ declaration.block lines ++ after) =
        declaration.block lines := by
  obtain ⟨first, below, behind, -, covers, -, -, extent⟩ := exists_block member
  have nonempty : declaration.block lines ≠ [] := by
    rw [covers]
    exact List.cons_ne_nil first below
  rw [← covers] at extent
  exact stays member before after ((endsItself_iff braces nonempty extent).1 ends after)

namespace SourceParser

/-- **The lines around a construct in braces have no influence on it, if it ends itself.**  Put any
lines in front of its block and any lines behind it: the declaration stands in front of the same
block, its construct is the same, and a text with these lines that is read in the family lists it. -/
theorem construct_around_braces (parser : SourceParser) {family : Family}
    (braces : family ≠ .python) {lines : List Text} {declaration : Declaration}
    (member : declaration ∈ declarations family lines)
    (ends : endsItself family.quotes (declaration.block lines) = true) (before after : List Text) :
    declaration.movedTo before.length ∈
        declarations family (before ++ declaration.block lines ++ after) ∧
      (declaration.movedTo before.length).block (before ++ declaration.block lines ++ after) =
        declaration.block lines ∧
      parser.construct family (before ++ declaration.block lines ++ after)
          (declaration.movedTo before.length) = parser.construct family lines declaration ∧
      ∀ (content : Text) (path : String),
        content.lines = before ++ declaration.block lines ++ after →
        parser.familyOf path content.lines = family →
        parser.construct family lines declaration ∈
          (parser.parse content path).listed declaration.kind := by
  obtain ⟨found, same⟩ := Declaration.stays_of_endsItself braces member ends before after
  refine ⟨found, same, construct_movedTo parser family same, fun content path text read => ?_⟩
  rw [← text] at found same
  exact construct_mem_listed_movedTo read found same

/-- A function whose body is announced over blank lines, with braces in a comment and a literal. -/
def putLines : List Text :=
  ["use std::fmt;", "", "pub fn put<T>(items: &[T]) -> usize", "", "where", "    T: Clone, /* a \x7b",
    "  \x7b */", "\x7b", "    let open = \"\x7b\";", "    items.len()", "\x7d",
    "fn next() \x7b\x7d"].map String.toList

/-- Between other lines, which would open a comment and a body, the function is the same. -/
theorem construct_around_braces_put :
    (⟨"put", .callable, 2, 11⟩ : Declaration) ∈ declarations .rust putLines ∧
      endsItself Family.rust.quotes (Declaration.block ⟨"put", .callable, 2, 11⟩ putLines) = true ∧
      let edited := ["/*".toList] ++ Declaration.block ⟨"put", .callable, 2, 11⟩ putLines ++
        ["\x7b".toList, "where".toList]
      (⟨"put", .callable, 1, 10⟩ : Declaration) ∈ declarations .rust edited ∧
        SourceParser.construct {} .rust edited ⟨"put", .callable, 1, 10⟩ =
          SourceParser.construct {} .rust putLines ⟨"put", .callable, 2, 11⟩ := by
  have member : (⟨"put", .callable, 2, 11⟩ : Declaration) ∈ declarations .rust putLines := by
    decide +kernel
  have ends : endsItself Family.rust.quotes
      (Declaration.block ⟨"put", .callable, 2, 11⟩ putLines) = true := by
    decide +kernel
  obtain ⟨found, -, construct, -⟩ := construct_around_braces {} (by decide) member ends
    ["/*".toList] ["\x7b".toList, "where".toList]
  exact ⟨member, ends, found, construct⟩

end SourceParser

end Traceability
