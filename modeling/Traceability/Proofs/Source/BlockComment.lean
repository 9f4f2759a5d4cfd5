/-
# Traceability.Proofs.Source.BlockComment -- where block comments are

A text holds a block comment if an opening mark has a closing mark somewhere behind
it (`HasBlock`); without one it stays as it is (`dropBlockComments_eq_self_iff`).

Two texts put together are read one after the other unless a block comment reaches
from the first into the second: the first leaves one open and the second closes it
(`SeamFree`, `dropBlockComments_append`).  A text between two others is outside of
block comments if none lies in it or reaches into it (`OutsideBlocks`).

What is taken out lets its neighbours meet, and these can be the two halves of an
opening mark.  That takes a slash right in front of one block comment and a star
right behind the same or a later one (`exists_splice_of_hasBlock`).
-/
import Traceability.Proofs.Text.Occurrence
import Traceability.Source.Comment

namespace Traceability

set_option autoImplicit false

/-- The mark that opens a block comment. -/
def blockOpening : Text := ['/', '*']

/-- The mark that closes a block comment. -/
def blockClosing : Text := ['*', '/']

/-- An opening mark with a closing mark behind it. -/
def HasBlock (text : Text) : Prop :=
  ∃ before within after, text = before ++ blockOpening ++ within ++ blockClosing ++ after

section

variable {c : Char} {rest text held : Text}

/-! ## Reading -/

theorem dropBlockComments_none_cons (code : ¬blockOpening <+: c :: rest) :
    dropBlockComments none (c :: rest) = c :: dropBlockComments none rest := by
  rw [dropBlockComments]
  rintro behind rfl rfl
  exact code ⟨behind, rfl⟩

theorem dropBlockComments_some_cons (inside : ¬blockClosing <+: c :: rest) :
    dropBlockComments (some held) (c :: rest) = dropBlockComments (some (c :: held)) rest := by
  rw [dropBlockComments]
  rintro behind rfl rfl
  exact inside ⟨behind, rfl⟩

/-- What is read stands in the text, or was held back before. -/
theorem dropBlockComments_sublist (held : Option Text) (text : Text) :
    (dropBlockComments held text).Sublist
      ((held.map (blockOpening ++ ·.reverse)).getD [] ++ text) := by
  fun_induction dropBlockComments held text with
  | case1 rest ih => exact ih
  | case2 c rest _ ih => exact ih.cons_cons c
  | case3 => exact List.Sublist.refl []
  | case4 held rest ih =>
      have behind : rest.Sublist (blockClosing ++ rest) := List.sublist_append_right _ _
      exact ih.trans (behind.trans (List.sublist_append_right _ _))
  | case5 held c rest _ ih => simpa using ih
  | case6 held => simp [blockOpening]

/-- A comment goes up to the first closing mark. -/
theorem exists_rest_of_closed (closed : blockClosing <:+: text) :
    ∃ within rest, text = within ++ blockClosing ++ rest ∧
      ∀ held, dropBlockComments (some held) text = dropBlockComments none rest := by
  induction text with
  | nil => exact absurd (List.infix_nil.1 closed) (by decide)
  | cons c text ih =>
      by_cases here : blockClosing <+: c :: text
      · obtain ⟨rest, parts⟩ := here
        rw [← parts]
        exact ⟨[], rest, rfl, fun _ => rfl⟩
      · obtain ⟨within, rest, parts, later⟩ := ih ((List.infix_cons_iff.1 closed).resolve_left here)
        refine ⟨c :: within, rest, by rw [parts]; rfl, fun held => ?_⟩
        rw [dropBlockComments_some_cons here, later]

/-- Of a text that begins with a block comment, what stands behind it is left. -/
theorem exists_rest_of_block (closed : blockClosing <:+: rest) :
    ∃ within after, rest = within ++ blockClosing ++ after ∧
      dropBlockComments none (blockOpening ++ rest) = dropBlockComments none after ∧
      after.length < (blockOpening ++ rest).length := by
  obtain ⟨within, after, parts, dropped⟩ := exists_rest_of_closed closed
  refine ⟨within, after, parts, dropped [], ?_⟩
  rw [parts]
  simp only [List.length_append, blockOpening, List.length_cons]
  omega

/-- What is never closed comes back. -/
theorem dropBlockComments_some_of_unclosed (unclosed : ¬blockClosing <:+: text) (held : Text) :
    dropBlockComments (some held) text = blockOpening ++ held.reverse ++ text := by
  induction text generalizing held with
  | nil => exact (List.append_nil _).symm
  | cons c text ih =>
      rw [List.infix_cons_iff, not_or] at unclosed
      rw [dropBlockComments_some_cons unclosed.1, ih unclosed.2]
      simp

/-! ## Texts with and without block comments -/

theorem HasBlock.closed (block : HasBlock text) : blockClosing <:+: text := by
  obtain ⟨before, within, after, rfl⟩ := block
  exact List.infix_append _ blockClosing after

theorem HasBlock.opened (block : HasBlock text) : blockOpening <:+: text := by
  obtain ⟨before, within, after, rfl⟩ := block
  exact ⟨before, within ++ blockClosing ++ after, by simp⟩

/-- A text that does not begin with the opening mark has its block comments behind its first
character. -/
theorem hasBlock_cons_iff (code : ¬blockOpening <+: c :: rest) :
    HasBlock (c :: rest) ↔ HasBlock rest := by
  constructor
  · rintro ⟨before, within, after, parts⟩
    cases before with
    | nil => exact absurd ⟨within ++ blockClosing ++ after, by simp [parts]⟩ code
    | cons d before => exact ⟨before, within, after, (List.cons.inj parts).2⟩
  · rintro ⟨before, within, after, rfl⟩
    exact ⟨c :: before, within, after, rfl⟩

theorem hasBlock_opening_append : HasBlock (blockOpening ++ rest) ↔ blockClosing <:+: rest := by
  constructor
  · rintro ⟨before, within, after, parts⟩
    have behind : ∀ front : Text, rest = front ++ blockClosing ++ after → blockClosing <:+: rest :=
      fun front whole => ⟨front, after, whole.symm⟩
    match before with
    | [] =>
        apply behind within
        simpa [blockOpening] using parts
    | [_] => simp [blockOpening] at parts
    | _ :: _ :: before =>
        apply behind (before ++ blockOpening ++ within)
        simp only [blockOpening, List.cons_append, List.nil_append, List.cons.injEq] at parts ⊢
        simpa [blockOpening] using parts.2.2
  · rintro ⟨within, after, rfl⟩
    exact ⟨[], within, after, by simp⟩

theorem dropBlockComments_of_not_hasBlock (free : ¬HasBlock text) :
    dropBlockComments none text = text := by
  induction text with
  | nil => rfl
  | cons c rest ih =>
      by_cases opens : blockOpening <+: c :: rest
      · obtain ⟨behind, parts⟩ := opens
        rw [← parts, hasBlock_opening_append] at free
        rw [← parts]
        exact dropBlockComments_some_of_unclosed free []
      · rw [hasBlock_cons_iff opens] at free
        rw [dropBlockComments_none_cons opens, ih free]

/-- A block comment makes a text shorter. -/
theorem HasBlock.length_dropBlockComments_lt (block : HasBlock text) :
    (dropBlockComments none text).length < text.length := by
  induction text with
  | nil => exact absurd (List.infix_nil.1 block.opened) (by decide)
  | cons c rest ih =>
      by_cases opens : blockOpening <+: c :: rest
      · obtain ⟨behind, parts⟩ := opens
        rw [← parts, hasBlock_opening_append] at block
        obtain ⟨within, after, -, dropped, shorter⟩ := exists_rest_of_block block
        rw [← parts, dropped]
        exact Nat.lt_of_le_of_lt (dropBlockComments_sublist none after).length_le shorter
      · rw [hasBlock_cons_iff opens] at block
        rw [dropBlockComments_none_cons opens]
        exact Nat.succ_lt_succ (ih block)

/-- **A text stays as it is exactly if it holds no block comment.** -/
theorem dropBlockComments_eq_self_iff :
    dropBlockComments none text = text ↔ ¬HasBlock text := by
  refine ⟨fun same block => ?_, dropBlockComments_of_not_hasBlock⟩
  have shorter := block.length_dropBlockComments_lt
  rw [same] at shorter
  exact absurd shorter (Nat.lt_irrefl _)

instance (text : Text) : Decidable (HasBlock text) :=
  decidable_of_decidable_of_iff
    (show ¬dropBlockComments none text = text ↔ HasBlock text by
      rw [dropBlockComments_eq_self_iff, Classical.not_not])

end

/-! ## Texts put together -/

/-- Is a comment open behind the text?  An opening mark counts also if the comment is never closed. -/
def blockOpen : (inComment : Bool) → Text → Bool
  | false, '/' :: '*' :: rest => blockOpen true rest
  | false, _ :: rest => blockOpen false rest
  | true, '*' :: '/' :: rest => blockOpen false rest
  | true, _ :: rest => blockOpen true rest
  | inComment, [] => inComment

/-- No block comment reaches from the first text into the second. -/
def SeamFree (front back : Text) : Prop :=
  blockOpen false front = true → ¬blockClosing <:+: back

instance (front back : Text) : Decidable (SeamFree front back) :=
  decidable_of_decidable_of_iff
    (show (blockOpen false front = true → ¬Text.occursIn blockClosing back = true) ↔
        SeamFree front back by
      rw [SeamFree, Text.occursIn_iff])

section

variable {c d : Char} {held : Option Text} {front back rest : Text}

theorem blockOpen_false_cons (code : ¬blockOpening <+: c :: rest) :
    blockOpen false (c :: rest) = blockOpen false rest := by
  rw [blockOpen]
  rintro behind rfl rfl
  exact code ⟨behind, rfl⟩

theorem blockOpen_true_cons (inside : ¬blockClosing <+: c :: rest) :
    blockOpen true (c :: rest) = blockOpen true rest := by
  rw [blockOpen]
  rintro behind rfl rfl
  exact inside ⟨behind, rfl⟩

theorem not_prefix_of_forall {a b : Char} (no : ∀ behind, c = a → rest = b :: behind → False) :
    ¬[a, b] <+: c :: rest := by
  rintro ⟨behind, parts⟩
  cases parts
  exact no behind rfl rfl

/-- A text begins apart from any mark if its first character belongs to none. -/
theorem not_mem_of_head?_cons (other : d ∉ blockOpening) (rest : Text) :
    ∀ e ∈ (d :: rest).head?, e ∉ blockOpening := by
  intro e member
  rwa [← Option.some.inj member]

/-- A character of no mark is read by itself. -/
theorem dropBlockComments_cons_of_not_mem (other : d ∉ blockOpening) (rest : Text) :
    dropBlockComments none (d :: rest) = d :: dropBlockComments none rest :=
  dropBlockComments_none_cons (Text.not_prefix_cons other (by decide) rest)

/-- No mark reaches over a character of another kind. -/
theorem not_prefix_append {mark : Text} (other : d ∉ mark) (no : ¬mark <+: c :: rest)
    (back : Text) : ¬mark <+: c :: (rest ++ d :: back) := by
  rwa [← List.cons_append, Text.prefix_append_cons other]

theorem not_mem_blockClosing (other : d ∉ blockOpening) : d ∉ blockClosing := by
  simp only [blockOpening, blockClosing, List.mem_cons, List.not_mem_nil, or_false] at other ⊢
  exact fun mark => other mark.symm

theorem blockOpen_true_of_unclosed {text : Text} (unclosed : ¬blockClosing <:+: text) :
    blockOpen true text = true := by
  induction text with
  | nil => rfl
  | cons c text ih =>
      rw [List.infix_cons_iff, not_or] at unclosed
      rw [blockOpen_true_cons unclosed.1, ih unclosed.2]

theorem blockOpen_false_of_unopened {text : Text} (unopened : ¬blockOpening <:+: text) :
    blockOpen false text = false := by
  induction text with
  | nil => rfl
  | cons c text ih =>
      rw [List.infix_cons_iff, not_or] at unopened
      rw [blockOpen_false_cons unopened.1, ih unopened.2]

/-- Where nothing is closed, the first opening mark leaves a comment open. -/
theorem blockOpen_false_of_opened {text : Text} (opened : blockOpening <:+: text)
    (unclosed : ¬blockClosing <:+: text) : blockOpen false text = true := by
  induction text with
  | nil => exact absurd (List.infix_nil.1 opened) (by decide)
  | cons c text ih =>
      by_cases opens : blockOpening <+: c :: text
      · obtain ⟨behind, parts⟩ := opens
        rw [← parts] at unclosed ⊢
        exact blockOpen_true_of_unclosed fun closed =>
          unclosed (closed.trans (List.suffix_append _ _).isInfix)
      · rw [List.infix_cons_iff, not_or] at unclosed
        rw [blockOpen_false_cons opens]
        exact ih ((List.infix_cons_iff.1 opened).resolve_left opens) unclosed.2

/-- Behind a text that leaves no comment open, reading starts again. -/
theorem dropBlockComments_append_of_closed (other : d ∉ blockOpening)
    (closed : blockOpen held.isSome front = false) (back : Text) :
    dropBlockComments held (front ++ d :: back) =
      dropBlockComments held front ++ dropBlockComments none (d :: back) := by
  fun_induction dropBlockComments held front with
  | case1 rest ih => exact ih closed
  | case2 c rest no ih =>
      rw [Option.isSome_none, blockOpen_false_cons (not_prefix_of_forall no)] at closed
      rw [List.cons_append, dropBlockComments_none_cons
        (not_prefix_append other (not_prefix_of_forall no) back), ih closed, List.cons_append]
  | case3 => rfl
  | case4 held rest ih => exact ih closed
  | case5 held c rest no ih =>
      rw [Option.isSome_some, blockOpen_true_cons (not_prefix_of_forall no)] at closed
      rw [List.cons_append, dropBlockComments_some_cons
        (not_prefix_append (not_mem_blockClosing other) (not_prefix_of_forall no) back), ih closed]
  | case6 held => exact nomatch closed

/-- A text that leaves a comment open has some code in front of it; the rest is held back. -/
theorem exists_code_of_open (open_ : blockOpen held.isSome front = true) :
    ∃ code inside : Text, (∀ c ∈ code, c ∈ front) ∧
      dropBlockComments held front = code ++ (blockOpening ++ inside.reverse) ∧
      ∀ d back, d ∉ blockOpening → dropBlockComments held (front ++ d :: back) =
        code ++ dropBlockComments (some inside) (d :: back) := by
  fun_induction dropBlockComments held front with
  | case1 rest ih =>
      obtain ⟨code, inside, among, left, goesOn⟩ := ih open_
      exact ⟨code, inside, fun c member => List.mem_cons_of_mem _ (List.mem_cons_of_mem _
        (among c member)), left, goesOn⟩
  | case2 c rest no ih =>
      rw [Option.isSome_none, blockOpen_false_cons (not_prefix_of_forall no)] at open_
      obtain ⟨code, inside, among, left, goesOn⟩ := ih open_
      refine ⟨c :: code, inside, ?_, by rw [left]; rfl, fun d back other => ?_⟩
      · exact List.forall_mem_cons.2 ⟨List.mem_cons_self, fun e member =>
          List.mem_cons_of_mem c (among e member)⟩
      · rw [List.cons_append, dropBlockComments_none_cons
          (not_prefix_append other (not_prefix_of_forall no) back), goesOn d back other]
        rfl
  | case3 => exact nomatch open_
  | case4 held rest ih =>
      obtain ⟨code, inside, among, left, goesOn⟩ := ih open_
      exact ⟨code, inside, fun c member => List.mem_cons_of_mem _ (List.mem_cons_of_mem _
        (among c member)), left, goesOn⟩
  | case5 held c rest no ih =>
      rw [Option.isSome_some, blockOpen_true_cons (not_prefix_of_forall no)] at open_
      obtain ⟨code, inside, among, left, goesOn⟩ := ih open_
      refine ⟨code, inside, fun e member => List.mem_cons_of_mem c (among e member), left,
        fun d back other => ?_⟩
      rw [List.cons_append, dropBlockComments_some_cons (not_prefix_append
        (not_mem_blockClosing other) (not_prefix_of_forall no) back), goesOn d back other]
  | case6 held =>
      exact ⟨[], held, fun _ member => absurd member List.not_mem_nil, rfl, fun _ _ _ => rfl⟩

/-- In a comment that is closed further down, what closes nothing does not matter. -/
theorem dropBlockComments_some_append (unclosed : ¬blockClosing <:+: front)
    (other : ∀ d ∈ back.head?, d ∉ blockOpening) (closed : blockClosing <:+: back)
    (held held' : Text) :
    dropBlockComments (some held) (front ++ back) = dropBlockComments (some held') back := by
  induction front generalizing held with
  | nil =>
      obtain ⟨within, rest, -, dropped⟩ := exists_rest_of_closed closed
      exact (dropped held).trans (dropped held').symm
  | cons c front ih =>
      rw [List.infix_cons_iff, not_or] at unclosed
      cases back with
      | nil => exact absurd (List.infix_nil.1 closed) (by decide)
      | cons d back =>
          rw [List.cons_append, dropBlockComments_some_cons
            (not_prefix_append (not_mem_blockClosing (other d rfl)) unclosed.1 back)]
          exact ih unclosed.2 (c :: held)

/-- **Texts over whose seam no block comment reaches are read one after the other.**  Neither does a
mark reach over it, if the second text begins with a character of no mark. -/
theorem dropBlockComments_append (apart : SeamFree front back)
    (other : ∀ d ∈ back.head?, d ∉ blockOpening) :
    dropBlockComments none (front ++ back) =
      dropBlockComments none front ++ dropBlockComments none back := by
  cases back with
  | nil => rw [List.append_nil]; exact (List.append_nil _).symm
  | cons d back =>
      have other : d ∉ blockOpening := other d rfl
      cases open_ : blockOpen (none : Option Text).isSome front with
      | false => exact dropBlockComments_append_of_closed other open_ back
      | true =>
          have unclosed := apart open_
          obtain ⟨code, inside, -, left, goesOn⟩ := exists_code_of_open open_
          rw [goesOn d back other, left, dropBlockComments_some_of_unclosed unclosed,
            dropBlockComments_of_not_hasBlock fun block => unclosed block.closed,
            List.append_assoc code]

end

/-- No block comment lies in the text, or reaches into it or over it from the texts around. -/
structure OutsideBlocks (front text back : Text) : Prop where
  /-- None that begins in front of the text is closed in it or behind it. -/
  enters : SeamFree front (text ++ back)
  /-- None that begins in the text is closed behind it. -/
  leaves : SeamFree text back
  within : ¬HasBlock text

instance (front text back : Text) : Decidable (OutsideBlocks front text back) :=
  decidable_of_decidable_of_iff
    (show SeamFree front (text ++ back) ∧ SeamFree text back ∧ ¬HasBlock text ↔
        OutsideBlocks front text back from
      ⟨fun ⟨enters, leaves, within⟩ => ⟨enters, leaves, within⟩,
        fun ⟨enters, leaves, within⟩ => ⟨enters, leaves, within⟩⟩)

theorem HasBlock.mono {text whole : Text} (block : HasBlock text) (within : text <:+: whole) :
    HasBlock whole := by
  obtain ⟨before, inside, after, rfl⟩ := block
  obtain ⟨front, back, rfl⟩ := within
  exact ⟨front ++ before, inside, after ++ back, by simp⟩

/-- A block comment stands on one side of a character of no mark, or reaches over it. -/
theorem HasBlock.of_append_cons {d : Char} (other : d ∉ blockOpening) {front back : Text}
    (block : HasBlock (front ++ d :: back)) :
    HasBlock front ∨ blockOpening <:+: front ∧ blockClosing <:+: back ∨ HasBlock back := by
  induction front with
  | nil =>
      have code : ¬blockOpening <+: d :: back := Text.not_prefix_cons other (by decide) back
      exact Or.inr (Or.inr ((hasBlock_cons_iff code).1 block))
  | cons c front ih =>
      by_cases opens : blockOpening <+: c :: front
      · obtain ⟨behind, parts⟩ := opens
        rw [← parts] at block ⊢
        rw [List.append_assoc, hasBlock_opening_append,
          Text.infix_append_cons (not_mem_blockClosing other)] at block
        rw [hasBlock_opening_append]
        exact block.imp_right fun closed => Or.inl ⟨(List.prefix_append _ _).isInfix, closed⟩
      · rw [List.cons_append, hasBlock_cons_iff (not_prefix_append other opens back)] at block
        rw [hasBlock_cons_iff opens]
        exact (ih block).imp_right (Or.imp_left fun ⟨opened, closed⟩ =>
          ⟨List.infix_cons opened, closed⟩)

/-! ## Neighbours that meet -/

section

variable {text : Text}

/-- What is left begins with a star only if the text does, or if one stands behind a block comment. -/
theorem exists_of_dropBlockComments_eq_star {left : Text}
    (star : dropBlockComments none text = '*' :: left) :
    (∃ rest, text = '*' :: rest) ∨
      ∃ within after, text = blockOpening ++ within ++ blockClosing ++ '*' :: after := by
  induction size : text.length using Nat.strongRecOn generalizing text with
  | _ n ih =>
      cases text with
      | nil => exact nomatch star
      | cons c rest =>
          by_cases opens : blockOpening <+: c :: rest
          · obtain ⟨behind, parts⟩ := opens
            by_cases closed : blockClosing <:+: behind
            · obtain ⟨within, after, whole, dropped, shorter⟩ := exists_rest_of_block closed
              rw [← parts, dropped] at star
              rw [parts, size] at shorter
              rw [← parts, whole]
              right
              rcases ih _ shorter star rfl with ⟨further, rfl⟩ | ⟨within', further, rfl⟩
              · exact ⟨within, further, by simp⟩
              · exact ⟨within ++ blockClosing ++ blockOpening ++ within', further, by simp⟩
            · rw [← parts,
                dropBlockComments_of_not_hasBlock (mt hasBlock_opening_append.1 closed)] at star
              exact absurd (List.cons.inj star).1 (by decide)
          · rw [dropBlockComments_none_cons opens] at star
            exact Or.inl ⟨rest, by rw [(List.cons.inj star).1]⟩

/-- **A block comment is left only where neighbours have met**: a slash right in front of a block
comment, and a star right behind that one or a later one. -/
theorem exists_splice_of_hasBlock (block : HasBlock (dropBlockComments none text)) :
    ∃ before within after, text =
      before ++ '/' :: blockOpening ++ within ++ blockClosing ++ '*' :: after := by
  induction size : text.length using Nat.strongRecOn generalizing text with
  | _ n ih =>
      cases text with
      | nil => exact absurd (List.infix_nil.1 block.opened) (by decide)
      | cons c rest =>
          by_cases opens : blockOpening <+: c :: rest
          · obtain ⟨behind, parts⟩ := opens
            by_cases closed : blockClosing <:+: behind
            · obtain ⟨within, after, whole, dropped, shorter⟩ := exists_rest_of_block closed
              rw [← parts, dropped] at block
              rw [parts, size] at shorter
              obtain ⟨before, within', further, rfl⟩ := ih _ shorter block rfl
              rw [← parts, whole]
              exact ⟨blockOpening ++ within ++ blockClosing ++ before, within', further, by simp⟩
            · rw [← parts,
                dropBlockComments_of_not_hasBlock (mt hasBlock_opening_append.1 closed)] at block
              exact absurd (hasBlock_opening_append.1 block) closed
          · rw [dropBlockComments_none_cons opens] at block
            by_cases meets : blockOpening <+: c :: dropBlockComments none rest
            · -- The slash is there, and the star comes from behind a block comment.
              obtain ⟨left, parts⟩ := meets
              obtain ⟨rfl, star⟩ := List.cons.inj parts
              rcases exists_of_dropBlockComments_eq_star star.symm with
                ⟨further, rfl⟩ | ⟨within, further, rfl⟩
              · exact absurd ⟨further, rfl⟩ opens
              · exact ⟨[], within, further, by simp⟩
            · obtain ⟨before, within, further, rfl⟩ :=
                ih _ (by rw [← size]; exact Nat.lt_succ_self _)
                  ((hasBlock_cons_iff meets).1 block) rfl
              exact ⟨c :: before, within, further, by simp⟩

end

end Traceability
