/-
# Traceability.Proofs.Text.Pattern -- what a pattern fits

`Pattern.Fits` says in plain terms which texts a pattern can use up in front of
which rests: a sequence uses up the one and then the other, a repetition uses up
any number of pieces one after the other.  The list of rests that is tried holds
exactly these (`mem_rests_iff`), whatever the order of preference; in particular
the bound on repetitions loses none, because a repetition that uses up nothing
leads nowhere new.

A pattern is `Within` another one when that one uses up the same texts in front of
the same rests.  There is one lemma for each way in which a pattern can become
wider.
-/
import Traceability.Text.Pattern

namespace Traceability.Pattern

set_option autoImplicit false

variable {first second body narrow wide : Pattern}

/-! ## Texts that a pattern uses up -/

/-- The text is a row of pieces, each of them used up in front of what follows it. -/
inductive Repeats (once : Text → Text → Prop) : Text → Text → Prop where
  | stop (rest : Text) : Repeats once [] rest
  | again {front back rest : Text} (here : once front (back ++ rest))
      (later : Repeats once back rest) : Repeats once (front ++ back) rest

/-- The pattern can use up the text in front of the rest. -/
def Fits : Pattern → Text → Text → Prop
  | .one ok, used, _ => ∃ c, used = [c] ∧ ok c = true
  | .exactly word, used, _ => used = word
  | .span ok, used, _ => ∀ c ∈ used, ok c = true
  | .check ok, used, rest => used = [] ∧ ok rest = true
  | .seq first second, used, rest =>
      ∃ front back, used = front ++ back ∧ first.Fits front (back ++ rest) ∧ second.Fits back rest
  | .alt first second, used, rest => first.Fits used rest ∨ second.Fits used rest
  | .many body, used, rest => Repeats body.Fits used rest

/-- A run in a text is empty or begins with the first character. -/
theorem exists_run_cons_iff {ok : Char → Bool} {c : Char} {text rest : Text} :
    (∃ run, c :: text = run ++ rest ∧ ∀ d ∈ run, ok d = true) ↔
      rest = c :: text ∨ ok c = true ∧ ∃ run, text = run ++ rest ∧ ∀ d ∈ run, ok d = true := by
  constructor
  · rintro ⟨run, cut, allowed⟩
    cases run with
    | nil => exact Or.inl cut.symm
    | cons d run =>
        obtain ⟨rfl, rfl⟩ := List.cons.inj cut
        obtain ⟨here, later⟩ := List.forall_mem_cons.1 allowed
        exact Or.inr ⟨here, run, rfl, later⟩
  · rintro (rfl | ⟨here, run, rfl, later⟩)
    · exact ⟨[], rfl, nofun⟩
    · exact ⟨c :: run, rfl, List.forall_mem_cons.2 ⟨here, later⟩⟩

theorem mem_spanRests_iff {ok : Char → Bool} {text rest : Text} {shorter : List Text} :
    rest ∈ spanRests ok text shorter ↔
      rest ∈ shorter ∨ ∃ run, text = run ++ rest ∧ ∀ c ∈ run, ok c = true := by
  induction text generalizing shorter with
  | nil =>
      have nothing : (∃ run, [] = run ++ rest ∧ ∀ c ∈ run, ok c = true) ↔ rest = [] := by
        refine ⟨fun ⟨run, cut, _⟩ => (List.append_eq_nil_iff.1 cut.symm).2, ?_⟩
        rintro rfl
        exact ⟨[], rfl, nofun⟩
      rw [nothing, spanRests, List.mem_cons, or_comm]
  | cons c text ih =>
      rw [exists_run_cons_iff, spanRests]
      by_cases here : ok c = true
      · rw [if_pos here, ih, List.mem_cons, or_assoc, or_left_comm]
        simp only [here, true_and]
      · rw [if_neg here, List.mem_cons, or_comm]
        simp only [here, Bool.false_eq_true, false_and, or_false]

/-- Repetitions by the list of rests use up rows of pieces. -/
theorem repeats_of_mem_repeatRests {step : Text → List Text} {once : Text → Text → Prop}
    (sound : ∀ text, ∀ rest ∈ step text, ∃ used, text = used ++ rest ∧ once used rest)
    {fuel : Nat} {text rest : Text} (member : rest ∈ repeatRests step fuel text) :
    ∃ used, text = used ++ rest ∧ Repeats once used rest := by
  induction fuel generalizing text with
  | zero => exact ⟨[], (List.mem_singleton.1 member).symm, .stop rest⟩
  | succ fuel ih =>
      rw [repeatRests, List.mem_append, List.mem_flatMap, List.mem_singleton] at member
      rcases member with ⟨middle, stepped, further⟩ | rfl
      · obtain ⟨front, rfl, here⟩ := sound text middle stepped
        obtain ⟨back, rfl, later⟩ := ih further
        exact ⟨front ++ back, (List.append_assoc ..).symm, .again here later⟩
      · exact ⟨[], rfl, .stop rest⟩

/-- A row of pieces is found within as many repetitions as it has characters: pieces without any are
left out. -/
theorem Repeats.mem_repeatRests {step : Text → List Text} {once : Text → Text → Prop}
    (complete : ∀ used rest, once used rest → rest ∈ step (used ++ rest))
    {used rest : Text} (row : Repeats once used rest) {fuel : Nat} (enough : used.length ≤ fuel) :
    rest ∈ repeatRests step fuel (used ++ rest) := by
  induction row generalizing fuel with
  | stop rest =>
      cases fuel with
      | zero => exact List.mem_singleton_self rest
      | succ fuel => exact List.mem_append_right _ (List.mem_singleton_self rest)
  | @again front back rest here later ih =>
      cases front with
      | nil => exact ih enough
      | cons c front =>
          rw [List.cons_append, List.length_cons, List.length_append] at enough
          obtain ⟨fuel, rfl⟩ := Nat.exists_eq_add_of_le' (Nat.le_trans (Nat.le_add_left 1 _) enough)
          have stepped := complete (c :: front) (back ++ rest) here
          rw [← List.append_assoc] at stepped
          exact List.mem_append_left _ (List.mem_flatMap.2 ⟨_, stepped, ih (by omega)⟩)

/-- **The rests of a pattern are those it leaves of what it uses up.** -/
theorem mem_rests_iff {pattern : Pattern} {text rest : Text} :
    rest ∈ pattern.rests text ↔ ∃ used, text = used ++ rest ∧ pattern.Fits used rest := by
  induction pattern generalizing text rest with
  | one ok =>
      constructor
      · intro member
        cases text with
        | nil => exact absurd member List.not_mem_nil
        | cons c text =>
            rw [rests] at member
            split at member
            · rename_i here
              exact ⟨[c], by rw [List.mem_singleton.1 member, List.singleton_append], c, rfl, here⟩
            · exact absurd member List.not_mem_nil
      · rintro ⟨_, rfl, c, rfl, here⟩
        simp only [rests, List.singleton_append, here, if_true, List.mem_singleton]
  | exactly word =>
      constructor
      · intro member
        rw [rests] at member
        split at member
        · rename_i starts
          obtain ⟨behind, rfl⟩ := List.isPrefixOf_iff_prefix.1 starts
          rw [List.drop_left] at member
          exact ⟨word, by rw [List.mem_singleton.1 member], rfl⟩
        · exact absurd member List.not_mem_nil
      · rintro ⟨_, rfl, rfl⟩
        rw [rests, if_pos (List.isPrefixOf_iff_prefix.2 (List.prefix_append _ _)), List.drop_left]
        exact List.mem_singleton_self rest
  | span ok =>
      rw [rests, mem_spanRests_iff]
      simp only [List.not_mem_nil, false_or, Fits]
  | check ok =>
      constructor
      · intro member
        rw [rests] at member
        split at member
        · rename_i passes
          obtain rfl := List.mem_singleton.1 member
          exact ⟨[], rfl, rfl, passes⟩
        · exact absurd member List.not_mem_nil
      · rintro ⟨_, rfl, rfl, passes⟩
        simp only [rests, List.nil_append, passes, if_true, List.mem_singleton]
  | seq first second firstIh secondIh =>
      rw [rests, List.mem_flatMap]
      constructor
      · rintro ⟨middle, passed, further⟩
        obtain ⟨front, rfl, fits⟩ := firstIh.1 passed
        obtain ⟨back, rfl, fitsBehind⟩ := secondIh.1 further
        exact ⟨front ++ back, (List.append_assoc ..).symm, front, back, rfl, fits, fitsBehind⟩
      · rintro ⟨_, rfl, front, back, rfl, fits, fitsBehind⟩
        exact ⟨back ++ rest, firstIh.2 ⟨front, List.append_assoc .., fits⟩,
          secondIh.2 ⟨back, rfl, fitsBehind⟩⟩
  | alt first second firstIh secondIh =>
      rw [rests, List.mem_append, firstIh, secondIh, ← exists_or]
      simp only [Fits, and_or_left]
  | many body ih =>
      constructor
      · exact repeats_of_mem_repeatRests fun text rest member => ih.1 member
      · rintro ⟨used, rfl, row⟩
        refine Repeats.mem_repeatRests (fun used rest fits => ih.2 ⟨used, rfl, fits⟩) row ?_
        rw [List.length_append]
        exact Nat.le_add_right ..

theorem accepts_iff {pattern : Pattern} {text : Text} :
    pattern.accepts text = true ↔ ∃ used rest, text = used ++ rest ∧ pattern.Fits used rest := by
  rw [accepts, Bool.not_eq_true', List.isEmpty_eq_false_iff_exists_mem, exists_comm]
  simp only [mem_rests_iff]

/-! ## Building blocks -/

theorem fits_all_cons {others : List Pattern} {used rest : Text} :
    (all (first :: others)).Fits used rest ↔ (first.seq (all others)).Fits used rest := by
  cases others with
  | nil =>
      constructor
      · intro fits
        exact ⟨used, [], (List.append_nil used).symm, fits, rfl⟩
      · rintro ⟨front, _, rfl, fits, rfl⟩
        rwa [List.append_nil]
  | cons next others => exact Iff.rfl

/-- Patterns one after the other may be read in two parts. -/
theorem fits_all_append (patterns others : List Pattern) {used rest : Text} :
    (all (patterns ++ others)).Fits used rest ↔ ((all patterns).seq (all others)).Fits used rest := by
  induction patterns generalizing used with
  | nil =>
      constructor
      · intro fits
        exact ⟨[], used, rfl, rfl, fits⟩
      · rintro ⟨_, back, rfl, rfl, fits⟩
        exact fits
  | cons pattern patterns ih =>
      rw [List.cons_append, fits_all_cons]
      constructor
      · rintro ⟨front, _, rfl, fits, further⟩
        obtain ⟨middle, back, rfl, between, behind⟩ := ih.1 further
        rw [List.append_assoc] at fits
        exact ⟨front ++ middle, back, (List.append_assoc ..).symm,
          fits_all_cons.2 ⟨front, middle, rfl, fits, between⟩, behind⟩
      · rintro ⟨_, back, rfl, lead, behind⟩
        obtain ⟨front, middle, rfl, fits, between⟩ := fits_all_cons.1 lead
        rw [← List.append_assoc] at fits
        exact ⟨front, middle ++ back, List.append_assoc .., fits, ih.2 ⟨middle, back, rfl, between, behind⟩⟩

theorem fits_optional {used rest : Text} :
    first.optional.Fits used rest ↔ used = [] ∨ first.Fits used rest := or_comm

theorem fits_oneOf {words : List String} {used rest : Text} :
    (oneOf words).Fits used rest ↔ ∃ word ∈ words, used = word.toList := by
  induction words with
  | nil => simp [oneOf, Fits]
  | cons word others ih =>
      cases others with
      | nil => simp [oneOf, Fits]
      | cons next others =>
          simp only [List.mem_cons (b := word), exists_eq_or_imp, ← ih]
          rfl

theorem fits_some {ok : Char → Bool} {used rest : Text} :
    (some ok).Fits used rest ↔ used ≠ [] ∧ ∀ c ∈ used, ok c = true := by
  constructor
  · rintro ⟨_, back, rfl, ⟨c, rfl, here⟩, later⟩
    exact ⟨List.cons_ne_nil c back, List.forall_mem_cons.2 ⟨here, later⟩⟩
  · rintro ⟨nonempty, allowed⟩
    obtain ⟨c, back, rfl⟩ := List.exists_cons_of_ne_nil nonempty
    obtain ⟨here, later⟩ := List.forall_mem_cons.1 allowed
    exact ⟨[c], back, rfl, ⟨c, rfl, here⟩, later⟩

theorem fits_anyOf {chars : String} {used rest : Text} :
    (anyOf chars).Fits used rest ↔ ∃ c ∈ chars.toList, used = [c] := by
  simp only [anyOf, Fits, List.contains_iff_mem, and_comm]

theorem fits_parenthesised {used rest : Text} :
    parenthesised.Fits used rest ↔ ∃ inside, used = '(' :: inside ++ [')'] ∧ ')' ∉ inside := by
  constructor
  · rintro ⟨_, _, rfl, opens, inside, _, rfl, within, closes⟩
    obtain ⟨c, isOpening, rfl⟩ := fits_anyOf.1 opens
    obtain ⟨d, isClosing, rfl⟩ := fits_anyOf.1 closes
    rw [List.mem_singleton.1 isOpening, List.mem_singleton.1 isClosing]
    refine ⟨inside, rfl, fun member => ?_⟩
    exact absurd (within ')' member) (by decide)
  · rintro ⟨inside, rfl, free⟩
    refine ⟨['('], inside ++ [')'], rfl, fits_anyOf.2 ⟨'(', List.mem_singleton_self _, rfl⟩,
      inside, [')'], rfl, fun c member => ?_, fits_anyOf.2 ⟨')', List.mem_singleton_self _, rfl⟩⟩
    exact bne_iff_ne.2 (ne_of_mem_of_not_mem member free)

theorem fits_many {piece : Text → Prop} (same : ∀ used rest, body.Fits used rest ↔ piece used)
    {used rest : Text} :
    body.many.Fits used rest ↔ ∃ pieces : List Text, used = pieces.flatten ∧ ∀ p ∈ pieces, piece p := by
  constructor
  · intro row
    induction row with
    | stop rest => exact ⟨[], rfl, nofun⟩
    | @again front back rest here later ih =>
        obtain ⟨pieces, rfl, each⟩ := ih
        exact ⟨front :: pieces, rfl, List.forall_mem_cons.2 ⟨(same _ _).1 here, each⟩⟩
  · rintro ⟨pieces, rfl, each⟩
    induction pieces with
    | nil => exact .stop rest
    | cons front pieces ih =>
        obtain ⟨here, later⟩ := List.forall_mem_cons.1 each
        exact .again ((same _ _).2 here) (ih later)

/-! ## Patterns within patterns -/

/-- What the one pattern uses up in front of a rest, the other one does as well. -/
def Within (narrow wide : Pattern) : Prop :=
  ∀ ⦃used rest : Text⦄, narrow.Fits used rest → wide.Fits used rest

namespace Within

theorem refl (pattern : Pattern) : pattern.Within pattern := fun _ _ fits => fits

theorem seq {narrow' wide' : Pattern} (front : narrow.Within wide) (back : narrow'.Within wide') :
    (narrow.seq narrow').Within (wide.seq wide') := by
  rintro _ rest ⟨before, behind, rfl, fits, fitsBehind⟩
  exact ⟨before, behind, rfl, front fits, back fitsBehind⟩

/-- An optional part may be left out. -/
theorem seq_optional (within : narrow.Within wide) (extra : Pattern) :
    narrow.Within (wide.seq extra.optional) := by
  intro used _ fits
  exact ⟨used, [], (List.append_nil used).symm, within fits, fits_optional.2 (Or.inl rfl)⟩

/-- Repetitions in front may be left out. -/
theorem many_seq (within : narrow.Within wide) (body : Pattern) :
    narrow.Within (body.many.seq wide) :=
  fun used _ fits => ⟨[], used, rfl, .stop _, within fits⟩

/-- One time or none is any number of times. -/
theorem optional_many (within : narrow.Within body) : narrow.optional.Within body.many := by
  intro used rest fits
  rcases fits_optional.1 fits with rfl | fits
  · exact .stop rest
  · have row : Repeats body.Fits (used ++ []) rest := .again (within fits) (.stop rest)
    rwa [List.append_nil] at row

theorem oneOf {word : String} {words : List String} (among : word ∈ words) :
    (exactly word.toList).Within (oneOf words) := by
  rintro _ rest rfl
  exact fits_oneOf.2 ⟨word, among, rfl⟩

end Within

end Traceability.Pattern
