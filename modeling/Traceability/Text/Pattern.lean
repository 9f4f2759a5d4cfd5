/-
# Traceability.Text.Pattern -- patterns with ordered alternatives

A `Pattern` describes a beginning of a text.  `rests` lists what can remain
after it, the preferred way first: an alternative before the later ones, a
longer repetition before a shorter one.  Whoever uses a pattern takes the first
rest with which it can go on, so trying again is nothing but walking down the
list.

A pattern never looks back; where the end of a word matters, the test is on the
rest (`Pattern.wordEnd`).
-/
import Traceability.Text.CharClass

namespace Traceability

set_option autoImplicit false

/-- A description of the beginning of a text. -/
inductive Pattern where
  /-- One character that satisfies a test. -/
  | one (ok : Char → Bool)
  /-- Exactly this text. -/
  | exactly (word : Text)
  /-- Characters that satisfy a test, as many as possible first. -/
  | span (ok : Char → Bool)
  /-- Nothing, provided the rest satisfies a test. -/
  | check (ok : Text → Bool)
  /-- The first pattern, then the second. -/
  | seq (first second : Pattern)
  /-- The first pattern, or else the second. -/
  | alt (first second : Pattern)
  /-- The pattern again and again, as often as possible first. -/
  | many (body : Pattern)

namespace Pattern

/-- What remains after characters that satisfy `ok`, the longest run first; `shorter` are the
rests already found. -/
def spanRests (ok : Char → Bool) : Text → List Text → List Text
  | [], shorter => [] :: shorter
  | c :: rest, shorter =>
      if ok c then spanRests ok rest ((c :: rest) :: shorter) else (c :: rest) :: shorter

/-- What remains after repeating `step`, more repetitions first, `fuel` of them at most. -/
def repeatRests (step : Text → List Text) : Nat → Text → List Text
  | 0, text => [text]
  | fuel + 1, text => (step text).flatMap (repeatRests step fuel) ++ [text]

/-- What can remain of a text after the pattern, in order of preference. -/
def rests : Pattern → Text → List Text
  | .one ok, text =>
      match text with
      | c :: rest => if ok c then [rest] else []
      | [] => []
  | .exactly word, text => if word.isPrefixOf text then [text.drop word.length] else []
  | .span ok, text => spanRests ok text []
  | .check ok, text => if ok text then [text] else []
  | .seq first second, text => (first.rests text).flatMap second.rests
  | .alt first second, text => first.rests text ++ second.rests text
  | .many body, text => repeatRests body.rests text.length text

def accepts (pattern : Pattern) (text : Text) : Bool := !(pattern.rests text).isEmpty

/-! ## Building blocks -/

def empty : Pattern := .exactly []

def all : List Pattern → Pattern
  | [] => empty
  | [pattern] => pattern
  | pattern :: others => .seq pattern (all others)

/-- The pattern, or else nothing. -/
def optional (pattern : Pattern) : Pattern := .alt pattern empty

/-- One of the words, tried in order. -/
def oneOf : List String → Pattern
  | [] => .check fun _ => false
  | [word] => .exactly word.toList
  | word :: others => .alt (.exactly word.toList) (oneOf others)

def anyOf (chars : String) : Pattern := .one chars.toList.contains

/-- At least one character that satisfies `ok`, as many as possible first. -/
def some (ok : Char → Bool) : Pattern := .seq (.one ok) (.span ok)

/-- Blanks, or nothing. -/
def blanks : Pattern := .span Text.isBlank

def gap : Pattern := some Text.isBlank

/-- A text in parentheses without a closing one inside. -/
def parenthesised : Pattern := all [anyOf "(", .span (· != ')'), anyOf ")"]

/-- Any number of the words, each followed by at least one blank. -/
def wordsBefore (words : List String) : Pattern := .many (.seq (oneOf words) gap)

/-- The word that came before ends here: no word character follows. -/
def wordEnd : Pattern := .check fun rest => !((rest.head?.map Text.isWord).getD false)

/-- A word begins here: a word character follows. -/
def wordStart : Pattern := .check fun rest => (rest.head?.map Text.isWord).getD false

end Pattern

end Traceability
