/-
# Traceability.Proofs.Source.Declaration -- a declaration line begins with a word

Whatever the family, what stands in front of the name in a form of declaration
line is either nothing or begins with a word character, and the name is a word
itself.  So behind its blanks a declaration line begins with a word character
(`begins_of_declared?`): no line declares anything that is blank or that begins
with a mark, as a number sign, two slashes or the star in the margin of a comment.

The leads of the forms are built from few kinds of pattern.  `Pattern.Begins` and
`Pattern.BeginsOrPasses` say of a pattern what is needed, and there is one lemma
for each way in which patterns are put together.
-/
import Traceability.Proofs.Source.Comment
import Traceability.Source.Declaration

namespace Traceability

set_option autoImplicit false

/-- Does the text begin with a word character? -/
def Text.beginsWithWord (text : Text) : Bool := text.head?.any Text.isWord

namespace Pattern

/-- Texts that the pattern fits begin with a word character. -/
def Begins (pattern : Pattern) : Prop :=
  ∀ text, ∀ rest ∈ pattern.rests text, text.beginsWithWord = true

/-- Texts that the pattern fits begin with a word character, or the pattern passes over nothing. -/
def BeginsOrPasses (pattern : Pattern) : Prop :=
  ∀ text, ∀ rest ∈ pattern.rests text, rest = text ∨ text.beginsWithWord = true

variable {first second body : Pattern}

theorem Begins.orPasses (begins : first.Begins) : first.BeginsOrPasses :=
  fun text rest member => Or.inr (begins text rest member)

theorem begins_exactly {c : Char} {word : Text} (isWord : Text.isWord c = true) :
    (exactly (c :: word)).Begins := by
  intro text rest member
  cases text with
  | nil => exact absurd member List.not_mem_nil
  | cons d text =>
      rw [rests] at member
      split at member
      · rename_i isPrefix
        simp only [List.isPrefixOf, Bool.and_eq_true, beq_iff_eq] at isPrefix
        obtain ⟨rfl, -⟩ := isPrefix
        exact isWord
      · exact absurd member List.not_mem_nil

theorem begins_one : (one Text.isWord).Begins := by
  intro text rest member
  cases text with
  | nil => exact absurd member List.not_mem_nil
  | cons c text =>
      rw [rests] at member
      split at member
      · rename_i isWord
        exact isWord
      · exact absurd member List.not_mem_nil

theorem beginsOrPasses_empty : empty.BeginsOrPasses := by
  intro text rest member
  rw [empty, rests, if_pos (List.isPrefixOf_nil_left)] at member
  exact Or.inl (List.mem_singleton.1 member)

theorem Begins.seq (begins : first.Begins) (second : Pattern) : (first.seq second).Begins := by
  intro text rest member
  obtain ⟨middle, passed, -⟩ := List.mem_flatMap.1 member
  exact begins text middle passed

theorem BeginsOrPasses.seq (lead : first.BeginsOrPasses) (begins : second.Begins) :
    (first.seq second).Begins := by
  intro text rest member
  obtain ⟨middle, passed, fits⟩ := List.mem_flatMap.1 member
  rcases lead text middle passed with rfl | word
  · exact begins middle rest fits
  · exact word

theorem Begins.alt (begins : first.Begins) (other : second.Begins) : (first.alt second).Begins := by
  intro text rest member
  rcases List.mem_append.1 member with left | right
  · exact begins text rest left
  · exact other text rest right

theorem Begins.optional (begins : first.Begins) : first.optional.BeginsOrPasses := by
  intro text rest member
  rcases List.mem_append.1 member with left | right
  · exact Or.inr (begins text rest left)
  · exact beginsOrPasses_empty text rest right

/-- The pattern passes over nothing in the last repetition, whose text is the first one or was
reached by a repetition that began with a word character. -/
theorem Begins.many (begins : body.Begins) : (many body).BeginsOrPasses := by
  intro text rest member
  rw [rests] at member
  cases fuel : text.length with
  | zero =>
      rw [fuel] at member
      exact Or.inl (List.mem_singleton.1 member)
  | succ fuel =>
      rw [fuel, repeatRests] at member
      rcases List.mem_append.1 member with more | last
      · obtain ⟨middle, passed, -⟩ := List.mem_flatMap.1 more
        exact Or.inr (begins text middle passed)
      · exact Or.inl (List.mem_singleton.1 last)

/-! ## Words -/

theorem begins_keyword (word : String) (keyword : Text.beginsWithWord word.toList = true) :
    (exactly word.toList).Begins := by
  cases letters : word.toList with
  | nil =>
      rw [letters] at keyword
      exact absurd keyword Bool.false_ne_true
  | cons c rest =>
      rw [letters] at keyword
      exact begins_exactly keyword

theorem begins_oneOf {words : List String}
    (keywords : ∀ word ∈ words, Text.beginsWithWord word.toList = true) :
    (oneOf words).Begins := by
  induction words with
  | nil => exact fun text rest member => absurd member List.not_mem_nil
  | cons word others ih =>
      obtain ⟨here, later⟩ := List.forall_mem_cons.1 keywords
      cases others with
      | nil => exact begins_keyword word here
      | cons next others => exact (begins_keyword word here).alt (ih later)

theorem beginsOrPasses_wordsBefore {words : List String}
    (keywords : ∀ word ∈ words, Text.beginsWithWord word.toList = true) :
    (wordsBefore words).BeginsOrPasses :=
  ((begins_oneOf keywords).seq gap).many

end Pattern

namespace DeclarationForm

open Pattern

theorem beginsOrPasses_maybeWord (word : String)
    (keyword : Text.beginsWithWord word.toList = true) : (maybeWord word).BeginsOrPasses :=
  ((begins_keyword word keyword).seq gap).optional

/-- The lead of every form begins with a word character, or passes over nothing. -/
theorem beginsOrPasses_lead {family : Family} {form : DeclarationForm}
    (among : form ∈ ofFamily family) : form.lead.BeginsOrPasses := by
  cases family with
  | python =>
      have async := beginsOrPasses_maybeWord "async" (by decide)
      simp only [ofFamily, List.mem_cons, List.not_mem_nil, or_false] at among
      rcases among with rfl | rfl
      · exact (async.seq ((begins_keyword "def" (by decide)).seq _)).orPasses
      · exact ((begins_keyword "class" (by decide)).seq _).orPasses
  | rust =>
      have visibility : rustVisibility.BeginsOrPasses :=
        ((begins_keyword "pub" (by decide)).seq _).optional
      have convention : rustConvention.BeginsOrPasses :=
        ((begins_keyword "extern" (by decide)).seq _).optional
      simp only [ofFamily, List.mem_cons, List.not_mem_nil, or_false] at among
      rcases among with rfl | rfl
      · exact (visibility.seq ((beginsOrPasses_wordsBefore (by decide)).seq
          (convention.seq ((begins_keyword "fn" (by decide)).seq _)))).orPasses
      · exact (visibility.seq ((begins_oneOf (by decide)).seq _)).orPasses
  | go =>
      simp only [ofFamily, List.mem_cons, List.not_mem_nil, or_false] at among
      rcases among with rfl | rfl
      · exact ((begins_keyword "func" (by decide)).seq _).orPasses
      · exact ((begins_keyword "type" (by decide)).seq _).orPasses
  | js =>
      have exported := beginsOrPasses_maybeWord "export" (by decide)
      have default := beginsOrPasses_maybeWord "default" (by decide)
      have async := beginsOrPasses_maybeWord "async" (by decide)
      have declared := beginsOrPasses_maybeWord "declare" (by decide)
      have abstracted := beginsOrPasses_maybeWord "abstract" (by decide)
      simp only [ofFamily, List.mem_cons, List.not_mem_nil, or_false] at among
      rcases among with rfl | rfl | rfl | rfl
      · exact (exported.seq (default.seq (async.seq
          ((begins_keyword "function" (by decide)).seq _)))).orPasses
      · exact (exported.seq ((begins_oneOf (by decide)).seq _)).orPasses
      · exact (exported.seq (default.seq (declared.seq (abstracted.seq
          ((begins_oneOf (by decide)).seq _))))).orPasses
      · exact beginsOrPasses_wordsBefore (by decide)
  | c =>
      simp only [ofFamily, List.mem_cons, List.not_mem_nil, or_false] at among
      rcases among with rfl | rfl
      · exact ((beginsOrPasses_wordsBefore (by decide)).seq (((begins_oneOf (by decide)).alt
          ((begins_keyword "enum" (by decide)).seq _)).seq _)).orPasses
      · exact ((beginsOrPasses_wordsBefore (by decide)).seq (begins_one.seq _)).orPasses

/-- What a form finds a name in begins with a word character. -/
theorem begins_of_match? {family : Family} {form : DeclarationForm} {line name : Text}
    (among : form ∈ ofFamily family) (found : form.match? line = some name) :
    Text.beginsWithWord line.trimLeft = true := by
  obtain ⟨rest, member, named⟩ := List.exists_of_findSome?_eq_some found
  rcases beginsOrPasses_lead among line.trimLeft rest member with rfl | begins
  · -- Nothing stands in front of the name, so the line begins with the name.
    cases text : line.trimLeft with
    | nil =>
        rw [text] at named
        exact absurd named nofun
    | cons c rest =>
        rw [text, nameAt] at named
        by_cases word : Text.isWord c = true
        · exact word
        · rw [List.takeWhile_cons_of_neg word] at named
          exact absurd named nofun
  · exact begins

end DeclarationForm

/-- **Behind its blanks, a declaration line begins with a word character.** -/
theorem begins_of_declared? {family : Family} {line : Text} {declared : Declared}
    (declares : declared? family line = some declared) :
    Text.beginsWithWord line.trimLeft = true := by
  obtain ⟨form, among, inForm⟩ := List.exists_of_findSome?_eq_some declares
  obtain ⟨name, found, -⟩ := Option.bind_eq_some_iff.1 inForm
  obtain ⟨letters, found, -⟩ := Option.map_eq_some_iff.1 found
  exact form.begins_of_match? among found

theorem declared?_eq_none {family : Family} {line : Text}
    (other : Text.beginsWithWord line.trimLeft = false) : declared? family line = none := by
  rw [Option.eq_none_iff_forall_ne_some]
  intro declared declares
  rw [begins_of_declared? declares] at other
  exact nomatch other

/-- A line that declares something is not blank. -/
theorem isBlankText_of_declared? {family : Family} {line : Text} {declared : Declared}
    (declares : declared? family line = some declared) : line.isBlankText = false := by
  rw [Bool.eq_false_iff]
  intro blank
  have begins := begins_of_declared? declares
  rw [Text.trimLeft_of_blank (List.all_eq_true.1 blank)] at begins
  exact nomatch begins

end Traceability
