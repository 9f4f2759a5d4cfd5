/-
# Traceability.Source.Declaration -- lines that declare something

Each language family has a few forms of declaration line.  A form is what may
stand between the indentation and the name, and what must stand after it; the
name itself is the whole word found there.  The first form that fits a line
decides, unless the word is one of those that only look like a name, or the
line is a prototype of the C family.
-/
import Traceability.Construct
import Traceability.Source.Family
import Traceability.Text.Pattern

namespace Traceability

set_option autoImplicit false

/-- A form of declaration line. -/
structure DeclarationForm where
  kind : ConstructKind
  /-- What stands between the indentation and the name. -/
  lead : Pattern
  /-- What must follow the name. -/
  tail : Pattern

namespace DeclarationForm

open Pattern

/-- The word at the beginning of a text, provided the tail follows it. -/
def nameAt (form : DeclarationForm) (text : Text) : Option Text :=
  let word := text.takeWhile Text.isWord
  if word.isEmpty then none
  else if form.tail.accepts (text.dropWhile Text.isWord) then some word else none

def match? (form : DeclarationForm) (line : Text) : Option Text :=
  (form.lead.rests line.trimLeft).findSome? form.nameAt

/-! ## The forms of each family -/

/-- The word and at least one blank, or nothing. -/
def maybeWord (word : String) : Pattern := optional (seq (.exactly word.toList) gap)

def thenOne (chars : String) : Pattern := seq blanks (anyOf chars)

/-- A visibility mark of Rust, such as `pub` or `pub(crate)`. -/
def rustVisibility : Pattern :=
  optional (all [.exactly "pub".toList, optional parenthesised, gap])

/-- A calling convention of Rust, such as `extern "C"`. -/
def rustConvention : Pattern :=
  optional (all [.exactly "extern".toList, gap, anyOf "\"", .span (· != '"'), anyOf "\"", gap])

/-- The result type that may follow the parameters of a method. -/
def methodResult : Pattern :=
  optional (all [anyOf ":", blanks,
    Pattern.some fun c => Text.isWord c || "<>[]|., ".toList.contains c])

/-- The forms of a family, in the order in which they are tried. -/
def ofFamily : Family → List DeclarationForm
  | .python =>
      [⟨.callable, all [maybeWord "async", .exactly "def".toList, gap], thenOne "("⟩,
        ⟨.data, all [.exactly "class".toList, gap], thenOne ":("⟩]
  | .rust =>
      [⟨.callable,
          all [rustVisibility, wordsBefore ["const", "async", "unsafe"], rustConvention,
            .exactly "fn".toList, gap],
          thenOne "(<"⟩,
        ⟨.data, all [rustVisibility, oneOf ["struct", "enum", "trait", "union", "type"], gap], empty⟩]
  | .go =>
      [⟨.callable, all [.exactly "func".toList, gap, optional (seq parenthesised blanks)],
          thenOne "(["⟩,
        ⟨.data, all [.exactly "type".toList, gap], gap⟩]
  | .js =>
      [⟨.callable,
          all [maybeWord "export", maybeWord "default", maybeWord "async",
            .exactly "function".toList, blanks, optional (anyOf "*"), blanks],
          thenOne "(<"⟩,
        ⟨.callable, all [maybeWord "export", oneOf ["const", "let", "var"], gap],
          all [thenOne "=", blanks, maybeWord "async",
            .alt parenthesised (Pattern.some Text.isWord), blanks, .exactly "=>".toList]⟩,
        ⟨.data,
          all [maybeWord "export", maybeWord "default", maybeWord "declare", maybeWord "abstract",
            oneOf ["class", "interface", "enum", "type"], gap],
          empty⟩,
        ⟨.callable,
          wordsBefore ["public", "private", "protected", "static", "async", "readonly", "get", "set"],
          all [blanks, parenthesised, blanks, methodResult, thenOne "\x7b"]⟩]
  | .c =>
      [⟨.data,
          all [wordsBefore ["typedef", "public", "private", "protected", "static", "final", "abstract"],
            .alt (oneOf ["struct", "class", "union", "interface"])
              (seq (.exactly "enum".toList) (optional (seq gap (.exactly "class".toList)))),
            gap],
          seq wordEnd (.check fun rest =>
            !((rest.trimLeft.head?.map ";*&".toList.contains).getD false))⟩,
        ⟨.callable,
          all [wordsBefore
              ["static", "public", "private", "protected", "virtual", "inline", "extern", "final"],
            .one Text.isWord,
            .span fun c => Text.isWord c || ":*&<>, ".toList.contains c,
            gap, .span "*&".toList.contains],
          thenOne "("⟩]

end DeclarationForm

/-- Words that look like a name to the loose forms and are none. -/
def notNames : List String :=
  ["if", "for", "while", "switch", "return", "else", "do", "sizeof", "catch", "new", "delete",
    "function", "typeof", "await", "throw"]

/-- What a line declares: a name and its kind. -/
abbrev Declared := String × ConstructKind

/-- What a line declares in one form.  A callable of the C family on a line that ends in a
semicolon is a prototype or a call. -/
def declaredIn (family : Family) (line : Text) (form : DeclarationForm) : Option Declared := do
  let name ← (form.match? line).map String.ofList
  if notNames.contains name then none
  else if family = .c && form.kind = .callable && line.trimRight.endsWith [';'] then none
  else some (name, form.kind)

def declared? (family : Family) (line : Text) : Option Declared :=
  (DeclarationForm.ofFamily family).findSome? (declaredIn family line)

end Traceability
