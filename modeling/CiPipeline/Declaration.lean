import CiPipeline.Condition.Parser
import CiPipeline.Job
import CiPipeline.Value.Limit

/-!
Building declarations from the parts that people write: values of any type become texts, conditions may
be expressions, and what cannot be a job or a pipeline is refused.
-/

namespace CiPipeline

/-- Why parts cannot be put together. -/
inductive BuildError
  | configuration (error : ConfigurationError)
  | job (fault : JobFault)
  deriving DecidableEq, Repr

/-- A condition as it is written: by an expression that is still to be read, or as a condition. -/
inductive WrittenCondition
  | expression (text : String)
  | condition (condition : Condition)

/-- The condition that is meant. -/
def WrittenCondition.read : WrittenCondition → Except ConfigurationError Condition
  | expression text => Condition.parse text
  | condition c => .ok c

/-- The condition that is meant, where there is one. -/
def readCondition (written : Option WrittenCondition) :
    Except ConfigurationError (Option Condition) :=
  match written with
  | none => .ok none
  | some w => w.read.map some

/-- Variables whose values are given as document values. -/
def environmentOf (values : Table String Value) : Environment :=
  values.mapValues Value.asText

/-- The parts of a step. -/
structure StepParts where
  name : String
  command : String
  cwd : Option String := none
  env : Table String Value := .empty
  secrets : Table String String := .empty
  condition : Option WrittenCondition := none
  timeout : Option Seconds := none

/-- The step with the given parts. -/
def Step.declare (parts : StepParts) : Except ConfigurationError Step := do
  return {
    name := parts.name
    command := parts.command
    cwd := parts.cwd
    env := environmentOf parts.env
    secrets := parts.secrets
    condition := ← readCondition parts.condition
    timeout := parts.timeout }

/-- The rule that some entries with keys and values of any kind make. -/
def Exclusion.declare (entries : List (Value × Value)) : Exclusion where
  entries := entries.map fun
    | (.text axis, value) => (.axis axis, value.asText)
    | (key, value) => (.foreign key.asText, value.asText)

/-- The parts of a job. -/
structure JobParts where
  name : String
  steps : List Step
  needs : List String := []
  axes : Table String (List Value) := .empty
  /-- The entries of each rule. -/
  exclude : List (List (Value × Value)) := []
  condition : Option WrittenCondition := none
  env : Table String Value := .empty
  /-- The directory of the steps that name none. -/
  cwd : Option String := none
  displayName : Option String := none

/-- A step with a directory to fall back on. -/
def Step.withDefaultCwd (cwd : Option String) (step : Step) : Step :=
  { step with cwd := step.cwd <|> cwd }

/-- Refuses some values if one of them has no text. -/
def requireTexts (values : List Value) : Except BuildError Unit :=
  if values.any Value.isTooLong then .error (.job .valueTooLong) else .ok ()

/-- The template with the given parts. It has a step at least, and a value at least on each axis. -/
def JobTemplate.declare (parts : JobParts) : Except BuildError JobTemplate := do
  if parts.steps.isEmpty then throw (.job (.noSteps parts.name))
  requireTexts parts.axes.values.flatten
  let axes := parts.axes.mapValues fun values => values.map Value.asText
  match axes.entries.find? fun axis => axis.2.isEmpty with
  | some (axis, _) => throw (.job (.emptyAxis parts.name axis))
  | none =>
    requireTexts (parts.exclude.flatten.map Prod.snd)
    return {
      name := parts.name
      steps := parts.steps.map (Step.withDefaultCwd parts.cwd)
      needs := parts.needs
      axes := axes
      exclude := parts.exclude.map Exclusion.declare
      condition := ← (readCondition parts.condition).mapError .configuration
      env := environmentOf parts.env
      displayName := parts.displayName }

/-- The names that more than one job has. -/
def duplicateNames (names : List String) : List String :=
  Text.repeated names

/-- Refuses names of which one occurs twice. -/
def requireDistinct (names : List String) : Except ConfigurationError Unit :=
  if names.Nodup then .ok () else .error (.duplicateJobs (duplicateNames names))

theorem requireDistinct_eq_ok {names : List String} (hnames : names.Nodup) :
    requireDistinct names = .ok () :=
  if_pos hnames

theorem requireDistinct_eq_error {names : List String} (hnames : ¬ names.Nodup) :
    requireDistinct names = .error (.duplicateJobs (duplicateNames names)) :=
  if_neg hnames

/-- The pipeline of some jobs with distinct names. -/
def Pipeline.declare (name : String) (triggers : TriggerRules) (jobs : List JobTemplate) :
    Except ConfigurationError Pipeline := do
  requireDistinct (jobs.map JobTemplate.name)
  return ⟨name, triggers, jobs⟩

end CiPipeline
