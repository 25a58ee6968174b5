import BlockPuzzle.Storage.FilePath

/-!
# Arguments

`Invocation.parse` reads the arguments of the command line. An option is written out with two hyphens or
by one letter with one; its value follows, as the next argument or attached. Every option may be given
once, and values may not look like options. Whoever asks for help gets it, whatever stands behind.
-/

namespace BlockPuzzle

/-- What the command line is asked to do. -/
inductive Invocation where
  | run (level script : FilePath) (settings : Option FilePath) (realtime json : Bool)
  | check (level : FilePath) (script : Option FilePath)
  | initSettings (path : FilePath)
  | help
  deriving DecidableEq

/-- An option of a subcommand; options without a letter have no value either. -/
structure OptionSpec where
  name : String
  letter : Option Char
  deriving DecidableEq

namespace Invocation

/-- The options that have been given, with their values; those without a value have an empty one. -/
abbrev Given := List (String × String)

/-- Whether an argument is no value but an option. -/
def looksLikeOption (argument : String) : Bool :=
  argument.startsWith "-" && argument != "-"

/-- Adds an option, unless it is there already. -/
def give (given : Given) (name value : String) : Option Given :=
  if (given.lookup name).isSome then none else some ((name, value) :: given)

/-- Adds an option with a value, which may not be empty. -/
def giveValue (given : Given) (name value : String) : Option Given :=
  if value.isEmpty then none else give given name value

/-- Splits a text at its first equals sign. -/
def splitValue (text : List Char) : String × Option String :=
  let name := String.ofList (text.takeWhile (· != '='))
  match text.dropWhile (· != '=') with
  | _ :: value => (name, some (String.ofList value))
  | [] => (name, none)

/-- Why arguments are not read on. -/
inductive Stop where
  | wrong
  | help
  deriving DecidableEq

/-- The options given so far, and the name of the one whose value still has to come. -/
abbrev HalfRead := Given × Option String

/-- Reads an option that is written out. -/
def readLong (specs : List OptionSpec) (given : Given) (text : List Char) : Option HalfRead :=
  let (name, value) := splitValue text
  match specs.find? (fun spec => spec.name == name), value with
  | none, _ => none
  | some ⟨_, none⟩, none => (give given name "").map (·, none)
  | some ⟨_, none⟩, some _ => none
  | some ⟨_, some _⟩, some value => (giveValue given name value).map (·, none)
  | some ⟨_, some _⟩, none => some (given, some name)

/-- Reads an option of one letter with what is attached to it. -/
def readShort (specs : List OptionSpec) (given : Given) (letter : Char) (attached : List Char) :
    Option HalfRead :=
  match specs.find? (fun spec => spec.letter == some letter), attached with
  | none, _ => none
  | some spec, [] => some (given, some spec.name)
  | some spec, '=' :: value => (giveValue given spec.name (String.ofList value)).map (·, none)
  | some spec, value => (giveValue given spec.name (String.ofList value)).map (·, none)

/-- Reads one option. -/
def readOption (specs : List OptionSpec) (given : Given) (argument : String) : Option HalfRead :=
  match argument.toList with
  | '-' :: '-' :: text => readLong specs given text
  | '-' :: letter :: attached => readShort specs given letter attached
  | _ => none

/-- Whether an argument asks for help. -/
def asksForHelp (argument : String) : Bool :=
  argument == "--help" || argument.startsWith "-h"

/-- Reads options; `awaiting` is the name of the option whose value comes next. -/
def parseOptions (specs : List OptionSpec) (given : Given) (awaiting : Option String) :
    List String → Except Stop Given
  | [] => if awaiting.isSome then .error .wrong else .ok given
  | argument :: arguments =>
    match awaiting with
    | some name =>
      if looksLikeOption argument then .error .wrong
      else
        match giveValue given name argument with
        | some given => parseOptions specs given none arguments
        | none => .error .wrong
    | none =>
      if argument = "--" then
        if arguments.isEmpty then .ok given else .error .wrong
      else if asksForHelp argument then .error .help
      else
        match readOption specs given argument with
        | some (given, awaiting) => parseOptions specs given awaiting arguments
        | none => .error .wrong

/-- The path given by an option. -/
def path? (given : Given) (name : String) : Option FilePath :=
  (given.lookup name).map FilePath.mk

/-- The options of `run`. -/
def runSpecs : List OptionSpec :=
  [⟨"level", some 'l'⟩, ⟨"script", some 's'⟩, ⟨"config", some 'c'⟩, ⟨"realtime", none⟩, ⟨"json", none⟩]

/-- The options of `check`. -/
def checkSpecs : List OptionSpec :=
  [⟨"level", some 'l'⟩, ⟨"script", some 's'⟩]

/-- The options of `init-config`. -/
def initSpecs : List OptionSpec :=
  [⟨"path", some 'p'⟩]

/-- Where settings are written if no path is given. -/
def defaultPath : FilePath :=
  ⟨"gridplay.json"⟩

/-- The names of the subcommands. -/
def subcommands : List String :=
  ["run", "check", "init-config", "help"]

/-- Reads the options of a subcommand and makes an invocation of them. -/
def parseWith (specs : List OptionSpec) (build : Given → Option Invocation)
    (arguments : List String) : Option Invocation :=
  match parseOptions specs [] none arguments with
  | .ok given => build given
  | .error .help => some .help
  | .error .wrong => none

/-- Builds an invocation of `run`. -/
def buildRun (given : Given) : Option Invocation := do
  let level ← path? given "level"
  let script ← path? given "script"
  return .run level script (path? given "config") (given.lookup "realtime").isSome
    (given.lookup "json").isSome

/-- Builds an invocation of `check`. -/
def buildCheck (given : Given) : Option Invocation := do
  let level ← path? given "level"
  return .check level (path? given "script")

/-- Builds an invocation of `init-config`. -/
def buildInit (given : Given) : Option Invocation :=
  some (.initSettings ((path? given "path").getD defaultPath))

/-- Reads the arguments; there is no invocation if they are wrong. -/
def parse : List String → Option Invocation
  | ["help"] => some .help
  | ["help", topic] => if subcommands.contains topic then some .help else none
  | "run" :: arguments => parseWith runSpecs buildRun arguments
  | "check" :: arguments => parseWith checkSpecs buildCheck arguments
  | "init-config" :: arguments => parseWith initSpecs buildInit arguments
  | argument :: _ => if asksForHelp argument then some .help else none
  | [] => none

end Invocation

end BlockPuzzle
