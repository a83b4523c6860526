import CiPipeline.Error
import CiPipeline.Job
import CiPipeline.Number.Numeral
import CiPipeline.Text.Uppercase

/-!
Settings of a run and the variables they are read from. A variable that is absent or blank leaves the
default; one that must be a number and is none is refused.
-/

namespace CiPipeline

/-- How a run is carried out. -/
structure Settings where
  maxWorkers : Int := 1
  logLevel : String := "WARNING"
  stepTimeout : Option Seconds := none
  outputLimit : Int := 4000
  cancelledSatisfiesNeeds : Bool := false
  failFast : Bool := false
  deriving DecidableEq, Repr

namespace Settings

/-- The words that switch a setting on. -/
def trueWords : List String := ["1", "true", "yes", "on"]

/-- The truth value of a variable. -/
def flag (value : Option String) (default : Bool) : Bool :=
  match value with
  | none => default
  | some text =>
    if Text.isAllBlank text then default
    else trueWords.contains (String.ofList ((Text.strip text).toList.map Char.toLower))

/-- The number in a variable. -/
def number {α : Type} (environment : Environment) (variableName : String)
    (read : String → Option α) (default : α) : Except ConfigurationError α :=
  match environment.get? variableName with
  | none => .ok default
  | some text =>
    if Text.isAllBlank text then .ok default
    else
      match read text with
      | some value => .ok value
      | none => .error (.notANumber variableName text)

/-- One worker less than there are processors, but one at least; two processors where unknown. -/
def defaultWorkers (processors : Option Nat) : Int :=
  let count := match processors with
    | none | some 0 => 2
    | some n => n
  max 1 ((count : Int) - 1)

/-- A time limit; what is not above zero is none. -/
def timeLimit (x : Number.Binary64) : Option Seconds :=
  if x.isPositive then some (.binary x) else none

/-- The variable of the number of workers. -/
def maxWorkersVariable : String := "CIGRAPH_MAX_WORKERS"

/-- The variable of the time limit of steps. -/
def stepTimeoutVariable : String := "CIGRAPH_STEP_TIMEOUT"

/-- The variable of the number of characters kept of an output. -/
def outputLimitVariable : String := "CIGRAPH_OUTPUT_LIMIT"

/-- Reads the settings from the variables of an environment. -/
def load (environment : Environment) (processors : Option Nat) :
    Except ConfigurationError Settings := do
  let workers ← number environment maxWorkersVariable (Option.map some ∘ Number.int?) none
  let timeout ← number environment stepTimeoutVariable Number.float? (.zero false)
  let outputLimit ← number environment outputLimitVariable Number.int? 4000
  return {
    maxWorkers := (workers.map (max 1)).getD (defaultWorkers processors)
    logLevel := Text.uppercase ((environment.get? "CIGRAPH_LOG_LEVEL").getD "WARNING")
    stepTimeout := timeLimit timeout
    outputLimit := outputLimit
    cancelledSatisfiesNeeds :=
      flag (environment.get? "CIGRAPH_CANCELLED_SATISFIES_NEEDS") false
    failFast := flag (environment.get? "CIGRAPH_FAIL_FAST") false }

/-- Settings that are given beside the environment; what is absent stays as it is. -/
structure Changes where
  maxWorkers : Option Int := none
  logLevel : Option String := none
  stepTimeout : Option Seconds := none
  outputLimit : Option Int := none
  cancelledSatisfiesNeeds : Option Bool := none
  failFast : Option Bool := none
  deriving DecidableEq, Repr

/-- The settings with some changes. -/
def override (settings : Settings) (changes : Changes) : Settings where
  maxWorkers := changes.maxWorkers.getD settings.maxWorkers
  logLevel := changes.logLevel.getD settings.logLevel
  stepTimeout := changes.stepTimeout <|> settings.stepTimeout
  outputLimit := changes.outputLimit.getD settings.outputLimit
  cancelledSatisfiesNeeds :=
    changes.cancelledSatisfiesNeeds.getD settings.cancelledSatisfiesNeeds
  failFast := changes.failFast.getD settings.failFast

end Settings
end CiPipeline
