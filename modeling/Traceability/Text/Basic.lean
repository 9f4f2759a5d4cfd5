/-
# Traceability.Text.Basic -- text as a list of characters

File contents, patch lines and tags are `Text`: plain lists of characters, so
that every operation on them is a recursion on the list and a proof can follow
it.  Names, keys and messages stay `String`.

`split` cuts at every separator and `joinWith` puts the separators back;
`joinWith_split` says that nothing is lost.  A text always has at least one
piece: the empty text has one empty piece, and a text that ends in a separator
ends in an empty piece.  `lines` and `unlines` are the two for line feeds.
-/

namespace Traceability

set_option autoImplicit false

/-- A piece of text, character by character. -/
abbrev Text := List Char

namespace Text

/-! ## Pieces and lines -/

/-- The pieces between separators, in order. -/
def split (separator : Char) : Text → List Text
  | [] => [[]]
  | c :: rest =>
      if c = separator then [] :: split separator rest
      else
        match split separator rest with
        | [] => [[c]]
        | piece :: others => (c :: piece) :: others

def joinWith (separator : Char) : List Text → Text
  | [] => []
  | [piece] => piece
  | piece :: others => piece ++ separator :: joinWith separator others

theorem split_ne_nil (separator : Char) (text : Text) : split separator text ≠ [] := by
  cases text with
  | nil => simp [split]
  | cons c rest =>
      simp only [split]
      split
      · simp
      · split <;> simp

theorem joinWith_cons_cons (separator c : Char) (piece : Text) (others : List Text) :
    joinWith separator ((c :: piece) :: others) = c :: joinWith separator (piece :: others) := by
  cases others <;> simp [joinWith]

theorem joinWith_nil_cons (separator : Char) (others : List Text) (nonempty : others ≠ []) :
    joinWith separator ([] :: others) = separator :: joinWith separator others := by
  cases others with
  | nil => exact absurd rfl nonempty
  | cons piece rest => simp [joinWith]

@[simp] theorem joinWith_split (separator : Char) (text : Text) :
    joinWith separator (split separator text) = text := by
  induction text with
  | nil => rfl
  | cons c rest ih =>
      simp only [split]
      split
      · rename_i h
        rw [joinWith_nil_cons _ _ (split_ne_nil separator rest), ih, h]
      · split
        · rename_i h; exact absurd h (split_ne_nil separator rest)
        · rename_i piece others h
          rw [joinWith_cons_cons, ← h, ih]

def lines (text : Text) : List Text := split '\n' text

def unlines (lines : List Text) : Text := joinWith '\n' lines

/-! ## Beginnings, ends and occurrences -/

/-- Does `text` begin with `start`? -/
def startsWith (text start : Text) : Bool := start.isPrefixOf text

/-- Does `text` begin with one of `starts`? -/
def startsWithAny (text : Text) (starts : List Text) : Bool := starts.any (startsWith text)

/-- Does `text` end with `finish`? -/
def endsWith (text finish : Text) : Bool := finish.isSuffixOf text

/-- Does `needle` occur in the text as a contiguous block?  The empty text occurs everywhere. -/
def occursIn (needle : Text) : Text → Bool
  | [] => needle.isEmpty
  | c :: rest => needle.isPrefixOf (c :: rest) || occursIn needle rest

/-- Put `replacement` in the place of the first occurrence of `needle`; a text without an
occurrence is unchanged, and the empty needle occurs at the very start. -/
def replaceFirst (needle replacement : Text) : Text → Text
  | [] => if needle.isEmpty then replacement else []
  | c :: rest =>
      if needle.isPrefixOf (c :: rest) then replacement ++ (c :: rest).drop needle.length
      else c :: replaceFirst needle replacement rest

/-- The text without the characters at its end that satisfy `p`. -/
def dropEndWhile (p : Char → Bool) (text : Text) : Text := (text.reverse.dropWhile p).reverse

/-- The text without the carriage returns at its end. -/
def dropReturns (text : Text) : Text := text.dropEndWhile (· == '\r')

def dropBlankEnd (texts : List Text) : List Text := (texts.reverse.dropWhile (·.isEmpty)).reverse

end Text

end Traceability
