/-
# Traceability.CommandLine.Invocation -- what a command line asks for

A command line has options for every command, then the name of a command, then
that command's own words.  The words after the name are read by the command
alone, but they are told apart with the common options first, so that a word
which could be short for several of these is refused anywhere.
-/
import Traceability.CommandLine.Options
import Traceability.Patch.Apply
import Traceability.Path

namespace Traceability.CommandLine

set_option autoImplicit false

/-- A command with its own options. -/
inductive Command where
  /-- Validate every link and save the store. -/
  | sync
  /-- Put tags into the targets of broken links. -/
  | inject
  /-- Would a patch break a link?  The patch is a file, or `-` for standard input. -/
  | simulate (patch : String) (mode : Option PatchMode) (asJson : Bool)
  /-- Everything known about an identifier. -/
  | context (nodeId : String)
  /-- The health of the links. -/
  | report (asJson : Bool)
  /-- Write a configuration file to start from. -/
  | init (force : Bool)
deriving DecidableEq, Repr

/-- The options for every command. -/
structure CommonOptions where
  root : Option Path := none
  config : Option Path := none
  verbose : Bool := false
  quiet : Bool := false
deriving DecidableEq, Repr

/-- A command and the options it is run with. -/
structure Invocation where
  options : CommonOptions
  command : Command
deriving DecidableEq, Repr

/-! ## The common options -/

/-- The common options read so far, and the words from the command's name on. -/
structure CommonSettings where
  options : CommonOptions := {}
  command : List String := []

/-- An option that can be given under several names. -/
def named {σ : Type} (names : List String) (effect : OptionEffect σ) : OptionTable σ :=
  names.map fun name => (name.toList, effect)

def helpOption {σ : Type} : OptionTable σ := named ["-h", "--help"] (.flag fun _ => .error .help)

def flagOption {σ : Type} (names : List String) (change : σ → σ) : OptionTable σ :=
  named names (.flag fun settings => .ok (change settings))

/-- An option with a value that changes the settings. -/
def valueOption {σ : Type} (names : List String) (change : String → σ → σ) : OptionTable σ :=
  named names (.value fun value settings => .ok (change value settings))

def CommonSettings.change (settings : CommonSettings) (f : CommonOptions → CommonOptions) :
    CommonSettings :=
  { settings with options := f settings.options }

/-- The common options, and the place for the command. -/
def commonGrammar : Grammar CommonSettings where
  table :=
    helpOption ++ named ["--version"] (.flag fun _ => .error .version) ++
      valueOption ["-w", "--workspace"] (fun value settings =>
        settings.change ({ · with root := some (Path.ofString value) })) ++
      valueOption ["--config"] (fun value settings =>
        settings.change ({ · with config := some (Path.ofString value) })) ++
      flagOption ["-v", "--verbose"] (fun settings => settings.change ({ · with verbose := true })) ++
      flagOption ["-q", "--quiet"] (fun settings => settings.change ({ · with quiet := true }))
  place settings := .rest fun words => { settings with command := words }

/-! ## The commands -/

/-- The grammar of a command without options of its own. -/
def bareGrammar : Grammar Unit := ⟨helpOption, fun _ => .none⟩

/-- What the words of `simulate` settle. -/
structure SimulateSettings where
  patch : Option String := none
  mode : Option PatchMode := none
  asJson : Bool := false

/-- The mode of a name, which must be one. -/
def chooseMode (name : String) (settings : SimulateSettings) : Except Stop SimulateSettings :=
  match PatchMode.ofName? name with
  | some mode => .ok { settings with mode := some mode }
  | none => .error .misuse

/-- The grammar of `simulate`. -/
def simulateGrammar : Grammar SimulateSettings where
  table :=
    helpOption ++ named ["--mode"] (.value chooseMode) ++
      flagOption ["-j", "--json"] ({ · with asJson := true })
  place settings :=
    if settings.patch.isSome then .none else .word fun patch => { settings with patch := some patch }

/-- The grammar of `context`; the settings are the identifier. -/
def contextGrammar : Grammar (Option String) where
  table := helpOption
  place nodeId := if nodeId.isSome then .none else .word some

/-- The grammar of `report`; the settings say whether to write a document. -/
def reportGrammar : Grammar Bool :=
  ⟨helpOption ++ flagOption ["-j", "--json"] fun _ => true, fun _ => .none⟩

/-- The grammar of `init`; the settings say whether to overwrite. -/
def initGrammar : Grammar Bool :=
  ⟨helpOption ++ flagOption ["--force"] fun _ => true, fun _ => .none⟩

/-- The settings that were read, provided every word found a place. -/
def Reading.complete {σ : Type} (reading : Reading σ) : Except Stop σ :=
  if reading.hasSurplus then .error .misuse else .ok reading.settings

/-- The settings of a command, provided each of its words finds a place. -/
def Grammar.settings {σ : Type} (grammar : Grammar σ) (words : List String) (start : σ) :
    Except Stop σ := do
  (← grammar.read words start).complete

def Command.ofWords (name : String) (words : List String) : Except Stop Command :=
  match name with
  | "sync" => do
      bareGrammar.settings words ()
      return .sync
  | "inject" => do
      bareGrammar.settings words ()
      return .inject
  | "simulate" => do
      let settings ← simulateGrammar.settings words {}
      return .simulate (settings.patch.getD "-") settings.mode settings.asJson
  | "context" => do
      match ← contextGrammar.settings words none with
      | some nodeId => return .context nodeId
      | none => throw .misuse
  | "report" => return .report (← reportGrammar.settings words false)
  | "init" => return .init (← initGrammar.settings words false)
  | _ => .error .misuse

/-- What a command line asks for; without a command it asks for help. -/
def Invocation.ofWords (words : List String) : Except Stop Invocation := do
  let reading ← commonGrammar.read words {}
  match reading.settings.command with
  | [] =>
      let _ ← reading.complete
      throw .help
  | name :: rest =>
      let command ← Command.ofWords name rest
      let settings ← reading.complete
      return ⟨settings.options, command⟩

end Traceability.CommandLine
