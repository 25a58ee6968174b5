import BlockPuzzle.Attempt.Verdict
import BlockPuzzle.Clock

/-!
# Settings

How long programs may run, how senses are answered, and how fast attempts are replayed. Every field has
a default; `Settings.check` refuses limits of zero.
-/

namespace BlockPuzzle

/-- How repeated senses of one block are answered: by a new look each time, or by its first answer. -/
inductive SenseRule where
  | recompute
  | firstSticks
  deriving DecidableEq

/-- The name of a rule for senses. -/
def SenseRule.name : SenseRule → String
  | recompute => "recompute"
  | firstSticks => "first-answer-sticks"

/-- The rule with a name. -/
def SenseRule.ofName? : String → Option SenseRule
  | "recompute" => some recompute
  | "first-answer-sticks" => some firstSticks
  | _ => none

/-- Delays of one replay: between journal entries and between pictures of the victory. -/
structure Cadence where
  step : Millis
  victory : Millis
  deriving DecidableEq

/-- Delays between journal entries for each verdict, and between pictures of the victory. -/
structure CadenceTable where
  success : Millis
  failure : Millis
  timeout : Millis
  error : Millis
  victory : Millis
  deriving DecidableEq

namespace CadenceTable

/-- The delays that apply where nothing else is asked for. -/
def default : CadenceTable :=
  ⟨100, 150, 150, 150, 300⟩

/-- The cadence for a verdict; an attempt without one is replayed like a failure. -/
def forVerdict (table : CadenceTable) (verdict : Verdict) : Cadence where
  step :=
    match verdict with
    | .success => table.success
    | .timeout => table.timeout
    | .error => table.error
    | .failure => table.failure
    | .unset => table.failure
  victory := table.victory

end CadenceTable

/-- All settings. -/
structure Settings where
  tickBudget : UInt64
  maxCallDepth : UInt64
  senseRule : SenseRule
  dedupe : Bool
  cadence : CadenceTable
  debug : Bool
  deriving DecidableEq

/-- What is wrong with settings. -/
inductive SettingsError where
  | noTicks
  | noDepth
  deriving DecidableEq

/-- The words for wrong settings. -/
def SettingsError.message : SettingsError → String
  | noTicks => "tick_budget must be positive"
  | noDepth => "max_call_depth must be positive"

namespace Settings

/-- The settings that apply where nothing else is asked for. -/
def default : Settings :=
  ⟨10000, 64, .recompute, true, .default, false⟩

/-- Refuses limits under which nothing can run. -/
def check (settings : Settings) : Except SettingsError Unit :=
  if settings.tickBudget = 0 then .error .noTicks
  else if settings.maxCallDepth = 0 then .error .noDepth
  else .ok ()

/-- The least severe messages that a log should hold. -/
def logLevel (settings : Settings) : String :=
  if settings.debug then "DEBUG" else "INFO"

end Settings

end BlockPuzzle
