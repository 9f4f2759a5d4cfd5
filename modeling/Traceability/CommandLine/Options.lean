/-
# Traceability.CommandLine.Options -- words, options and places

The words of a command line are first told apart, each on its own: a word is
plain, an option with or without an attached value, an option that nobody
knows, or the separator `--` after which every word is plain (`classifyAll`).  A
long option may be shortened as long as one option alone fits; a word that
fits several is refused, wherever it stands.

Then the words are read from left to right (`readWords`).  An option does what
its table says, and may take the next plain word as its value; a plain word
goes to the place that is open for it.  What finds no place is surplus, which the
caller refuses at the end, so that a request for help before it still counts.
-/
import Traceability.Text.CharClass

namespace Traceability.CommandLine

set_option autoImplicit false

/-- Why reading ends before a command is known. -/
inductive Stop where
  | misuse
  | help
  | version
deriving DecidableEq, Repr

/-- What an option does to the settings. -/
inductive OptionEffect (σ : Type) where
  | flag (act : σ → Except Stop σ)
  | value (act : String → σ → Except Stop σ)

/-- The names of options, such as `-v` and `--verbose`, with what they do. -/
abbrev OptionTable (σ : Type) := List (Text × OptionEffect σ)

/-! ## Telling words apart -/

/-- What a word holds after the name of an option. -/
inductive Attached where
  | nothing
  /-- What follows an equals sign. -/
  | value (text : Text)
  /-- What follows the letter of a short option directly. -/
  | letters (text : Text)

/-- What a word is. -/
inductive WordRole (σ : Type) where
  | plain
  | separator
  | option (effect : OptionEffect σ) (attached : Attached)
  | unknownOption

/-- A word of the command line and what it is. -/
structure Word (σ : Type) where
  text : String
  role : WordRole σ

/-- The word cut before its first equals sign, and what follows the sign, if there is one. -/
def cutAtEquals (word : Text) : Text × Attached :=
  let name := word.takeWhile (· != '=')
  (name, if name.length < word.length then .value (word.drop (name.length + 1)) else .nothing)

/-- Is the word a negative decimal number?  A final line feed does not count. -/
def isNegativeNumber (word : Text) : Bool :=
  let body := if word.endsWith ['\n'] then word.dropLast else word
  match body with
  | '-' :: digits =>
      let fraction := digits.dropWhile Text.isDecimal
      match fraction with
      | [] => !digits.isEmpty
      | '.' :: rest => !rest.isEmpty && rest.all Text.isDecimal
      | _ => false
  | _ => false

def candidates {σ : Type} (table : OptionTable σ) (word : Text) : List (WordRole σ) :=
  let (start, attached) := cutAtEquals word
  if word.startsWith ['-', '-'] then
    table.filterMap fun (name, effect) =>
      if name.startsWith start then some (.option effect attached) else none
  else
    table.filterMap fun (name, effect) =>
      if name = word.take 2 then some (.option effect (.letters (word.drop 2)))
      else if name.startsWith word then some (.option effect .nothing)
      else none

/-- The option that a word spells out, alone or before an equals sign. -/
def spelledOut? {σ : Type} (table : OptionTable σ) (word : Text) : Option (WordRole σ) :=
  match table.lookup word with
  | some effect => some (.option effect .nothing)
  | none =>
      match cutAtEquals word with
      | (name, .value text) => (table.lookup name).map fun effect => .option effect (.value text)
      | _ => none

def classify {σ : Type} (table : OptionTable σ) (word : Text) : Except Stop (WordRole σ) :=
  if word.head? ≠ some '-' || word.length ≤ 1 then .ok .plain
  else
    match spelledOut? table word with
    | some role => .ok role
    | none =>
        match candidates table word with
        | [role] => .ok role
        | _ :: _ :: _ => .error .misuse
        | [] =>
            if isNegativeNumber word || word.contains ' ' then .ok .plain else .ok .unknownOption

/-- The words, told apart. -/
def classifyAll {σ : Type} (table : OptionTable σ) : List String → Except Stop (List (Word σ))
  | [] => .ok []
  | word :: rest =>
      if word = "--" then .ok (⟨word, .separator⟩ :: rest.map fun word => ⟨word, .plain⟩)
      else do
        let role ← classify table word.toList
        return ⟨word, role⟩ :: (← classifyAll table rest)

/-! ## What an option asks for -/

/-- What is to be done for an option: what can be done at once, then what still waits for a value,
and whether some letters found no option. -/
structure OptionRequest (σ : Type) where
  acts : List (σ → Except Stop σ)
  waiting : Option (String → σ → Except Stop σ) := none
  hasSurplus : Bool := false

/-- The request of a flag and of the letters after it, each of which is a short option.  What
follows a letter that takes a value is the value, with or without an equals sign before it. -/
def letterRequest {σ : Type} (table : OptionTable σ) (act : σ → Except Stop σ) :
    Text → Except Stop (OptionRequest σ)
  | [] => .ok { acts := [act] }
  | letter :: rest =>
      if letter = '-' then .error .misuse
      else
        match table.lookup ['-', letter], rest with
        | none, _ => .ok { acts := [act], hasSurplus := true }
        | some (.value next), [] => .ok { acts := [act], waiting := some next }
        | some (.value next), '=' :: value => .ok { acts := [act, next (String.ofList value)] }
        | some (.value next), value => .ok { acts := [act, next (String.ofList value)] }
        | some (.flag _), '=' :: _ => .error .misuse
        | some (.flag next), rest => do
            let request ← letterRequest table next rest
            return { request with acts := act :: request.acts }

/-- The request of an option with what is attached to it.  A flag takes no value. -/
def optionRequest {σ : Type} (table : OptionTable σ) :
    OptionEffect σ → Attached → Except Stop (OptionRequest σ)
  | .flag act, .nothing => .ok { acts := [act] }
  | .flag _, .value _ => .error .misuse
  | .flag act, .letters letters => letterRequest table act letters
  | .value act, .nothing => .ok { acts := [], waiting := some act }
  | .value act, .value text => .ok { acts := [act (String.ofList text)] }
  | .value act, .letters text => .ok { acts := [act (String.ofList text)] }

def perform {σ : Type} (acts : List (σ → Except Stop σ)) (settings : σ) : Except Stop σ :=
  acts.foldlM (fun settings act => act settings) settings

/-! ## Reading -/

/-- The place for a plain word. -/
inductive Place (σ : Type) where
  | none
  /-- Takes the word. -/
  | word (put : String → σ)
  /-- Takes the word and all after it, as they were written. -/
  | rest (put : List String → σ)

/-- The options and the place of a command. -/
structure Grammar (σ : Type) where
  table : OptionTable σ
  /-- The place that is open under some settings. -/
  place : σ → Place σ

/-- The settings that were read, and whether some word found no place. -/
structure Reading (σ : Type) where
  settings : σ
  hasSurplus : Bool

/-- The words without a separator at their beginning. -/
def dropSeparator {σ : Type} : List (Word σ) → List (Word σ)
  | ⟨_, .separator⟩ :: rest => rest
  | words => words

theorem length_dropSeparator {σ : Type} (words : List (Word σ)) :
    (dropSeparator words).length ≤ words.length := by
  unfold dropSeparator
  split <;> simp

/-- Reads the words after some have been read.  A separator belongs to the word placed before or
after it; an option that waits for a value takes a plain word and nothing else. -/
def readWords {σ : Type} (grammar : Grammar σ) (words : List (Word σ)) (settings : σ)
    (hasSurplus : Bool) : Except Stop (Reading σ) :=
  match words with
  | [] => .ok ⟨settings, hasSurplus⟩
  | ⟨text, .plain⟩ :: rest =>
      match grammar.place settings with
      | .none => readWords grammar rest settings true
      | .word put => readWords grammar (dropSeparator rest) (put text) hasSurplus
      | .rest put => .ok ⟨put (text :: rest.map (·.text)), hasSurplus⟩
  | ⟨_, .separator⟩ :: rest =>
      match grammar.place settings with
      | .none => readWords grammar rest settings true
      | .word put =>
          match rest with
          | [] => .ok ⟨settings, hasSurplus⟩
          | word :: rest => readWords grammar rest (put word.text) hasSurplus
      | .rest _ => .error .misuse
  | ⟨_, .unknownOption⟩ :: rest => readWords grammar rest settings true
  | ⟨_, .option effect attached⟩ :: rest => do
      let request ← optionRequest grammar.table effect attached
      match request.waiting with
      | none =>
          readWords grammar rest (← perform request.acts settings) (hasSurplus || request.hasSurplus)
      | some act =>
          match rest with
          | ⟨value, .plain⟩ :: rest =>
              readWords grammar rest (← perform (request.acts ++ [act value]) settings) hasSurplus
          | _ => .error .misuse
termination_by words.length
decreasing_by
  all_goals have := length_dropSeparator rest
  all_goals simp_all only [List.length_cons]
  all_goals omega

def Grammar.read {σ : Type} (grammar : Grammar σ) (words : List String) (settings : σ) :
    Except Stop (Reading σ) := do
  readWords grammar (← classifyAll grammar.table words) settings false

end Traceability.CommandLine
