/-
# Traceability.Proofs.Source.CommentedOut -- declarations in block comments

Where a construct in braces ends is found on its code, comments left out; where
one begins is told by the text of a line alone.  So a line that lies in a block
comment declares what it would declare outside (`comment_declares_function`), and a
function that is commented out as a whole is listed as before, with the
fingerprint that it had (`construct_commentOut`).

Nothing is declared in a comment exactly if none of its lines that begin with a
word character has the form of a declaration (`declares_nothing_in_comments_iff`);
lines with a star in the margin never do.
-/
import Traceability.Proofs.Source.Braces
import Traceability.Proofs.Source.Declaration

namespace Traceability

set_option autoImplicit false

/-- Is a block comment open behind the lines?  The first line is read as code, and each other one in
the state that the line above it leaves. -/
def commentOpen (quotes : Text) (lines : List Text) : Bool :=
  lines.foldl (fun inComment line =>
    (bareCode quotes (if inComment then .blockComment else .code) line).2) false

/-- A line that opens a comment leaves one open, also where one was open already. -/
theorem commentOpen_opening (quotes : Text) (lines : List Text) :
    commentOpen quotes (lines ++ ["/*".toList]) = true := by
  rw [commentOpen, List.foldl_append, List.foldl_cons, List.foldl_nil]
  split <;> rfl

/-- The declaration starts on a line that lies in a block comment opened further up. -/
def Declaration.InComment (declaration : Declaration) (family : Family) (lines : List Text) : Prop :=
  commentOpen family.quotes (lines.take declaration.start) = true

instance (declaration : Declaration) (family : Family) (lines : List Text) :
    Decidable (declaration.InComment family lines) :=
  inferInstanceAs (Decidable (_ = true))

/-- **Nothing is declared in comments, exactly if no line in a comment that begins with a word
character has the form of a declaration.**  Lines that begin in another way need not be looked at. -/
theorem declares_nothing_in_comments_iff (family : Family) (lines : List Text) :
    (∀ declaration ∈ declarations family lines, ¬declaration.InComment family lines) ↔
      ∀ before line after, lines = before ++ line :: after →
        commentOpen family.quotes before = true → Text.beginsWithWord line.trimLeft = true →
        declared? family line = none := by
  constructor
  · rintro nowhere before line after rfl inComment -
    rw [Option.eq_none_iff_forall_ne_some]
    rintro ⟨name, kind⟩ declares
    refine nowhere _ (mem_declarations_iff.2 ⟨before, line, after, name, kind, rfl, declares, rfl⟩) ?_
    rwa [Declaration.InComment, List.take_left]
  · intro silent declaration member inComment
    obtain ⟨before, line, after, name, kind, rfl, declares, rfl⟩ := mem_declarations_iff.1 member
    rw [Declaration.InComment, List.take_left] at inComment
    have nothing := silent before line after rfl inComment (begins_of_declared? declares)
    exact Option.some_ne_none _ (declares.symm.trans nothing)

/-- A function in a comment. -/
theorem comment_declares_function :
    ¬∀ (family : Family) (content : Text), family ≠ .python →
      ∀ declaration ∈ declarations family content.lines,
        ¬declaration.InComment family content.lines := by
  intro nowhere
  have member : (⟨"f", .callable, 1, 3⟩ : Declaration) ∈
      declarations .rust (Text.lines "/*\nfn f() \x7b\n\x7d\n*/\n".toList) := by
    decide +kernel
  exact nowhere .rust _ (by decide) _ member (by decide +kernel)

/-- What starts right below a line that opens a comment lies in it. -/
theorem Declaration.inComment_of_opening {declaration : Declaration} {before : List Text}
    (starts : declaration.start = (before ++ ["/*".toList]).length) (family : Family)
    (rest : List Text) : declaration.InComment family (before ++ ["/*".toList] ++ rest) := by
  rw [InComment, starts, List.take_left]
  exact commentOpen_opening _ _

/-- The lines with the block of the declaration put in a comment, by a line above it and one below. -/
def Declaration.commentOut (declaration : Declaration) (lines : List Text) : List Text :=
  lines.take declaration.start ++ ["/*".toList] ++ declaration.block lines ++
    "*/".toList :: lines.drop declaration.stop

/-- **A construct that is commented out is the same construct.**  If it ends itself, it is declared
in the comment, and with the fingerprint that it had. -/
theorem SourceParser.construct_commentOut (parser : SourceParser) {family : Family}
    (braces : family ≠ .python) {lines : List Text} {declaration : Declaration}
    (member : declaration ∈ declarations family lines)
    (ends : endsItself family.quotes (declaration.block lines) = true) :
    ∃ inner ∈ declarations family (declaration.commentOut lines),
      inner.InComment family (declaration.commentOut lines) ∧
      parser.construct family (declaration.commentOut lines) inner =
        parser.construct family lines declaration := by
  obtain ⟨found, same⟩ := Declaration.stays_of_endsItself braces member ends
    (lines.take declaration.start ++ ["/*".toList]) ("*/".toList :: lines.drop declaration.stop)
  refine ⟨_, found, ?_, construct_movedTo parser family same⟩
  rw [Declaration.commentOut, List.append_assoc _ (declaration.block lines)]
  exact Declaration.inComment_of_opening rfl family _

end Traceability
