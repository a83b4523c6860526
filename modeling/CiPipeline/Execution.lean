import CiPipeline.Crash
import CiPipeline.Report
import CiPipeline.Secret
import CiPipeline.Secret.Redactor
import CiPipeline.Text.Utf8
import CiPipeline.Workspace

/-!
Execution of one job: its selected steps in order, up to the first that fails. Secret values are masked
in everything that is kept, before it is cut to its limit.
-/

namespace CiPipeline

/-- A command that is to be run. -/
structure CommandCall where
  command : String
  directory : String
  env : Environment
  timeout : Option Seconds
  deriving DecidableEq

/-- What was captured of a command that ran out of time. -/
inductive Capture
  | nothing
  | text (s : String)
  | bytes (content : List Nat)
  deriving DecidableEq, Repr

/-- The captured text. -/
def Capture.read : Capture → String
  | nothing => ""
  | text s => s
  | bytes content => Text.Utf8.decode content

/-- What came of running a command. -/
inductive CommandResult
  | exited (code : Int) (output : String)
  | timedOut (captured : Capture)
  /-- The system refused to run the command. -/
  | refused (kind text : String)
  | crashed (crash : Crash)
  | interrupted
  deriving DecidableEq, Repr

/-- Runs commands. -/
abbrev CommandRunner := CommandCall → CommandResult

/--
What a step meets outside of the program. It may be another thing for each step: a runner may have a state
of its own, and directories may come and go.
-/
structure System where
  runner : CommandRunner
  directories : Directories

/-- What a job is executed with. -/
structure Executor extends System where
  secrets : SecretProvider
  baseEnv : Environment
  /-- The time limit of steps that declare none. -/
  stepTimeout : Option Seconds := none
  /-- How many characters of an output are kept; zero keeps all. -/
  outputLimit : Int := 4000
  /-- Values that are masked in every job. -/
  protectedValues : List String := []
  now : Timestamp

/-- How a job ended that cannot be recorded as such. -/
inductive Abort
  | crashed (crash : Crash)
  | interrupted
  deriving DecidableEq, Repr

/-- What the execution of a job did, and its record unless it was broken off. -/
structure JobRun where
  /-- The steps that were begun, by name. -/
  begun : List String
  calls : List CommandCall
  result : Except Abort JobRecord

/-- The exit status of a command that ran out of time. -/
def timeoutExitCode : Int := 124

/-- A step that failed. -/
structure StepFailure where
  job : String
  step : String
  exitCode : Option Int
  detail : String := ""
  deriving DecidableEq, Repr

/-- The wording of a failed step. -/
def StepFailure.message (failure : StepFailure) : String :=
  let code := (failure.exitCode.map Value.intText).getD "n/a"
  let line := "[" ++ failure.job ++ "] step " ++ Text.enclosed failure.step ++ " failed (exit=" ++
    code ++ ")"
  if failure.detail.isEmpty then line else line ++ ": " ++ failure.detail

/-- The end of a text, of at most so many characters; zero means no limit. -/
def trimToLimit (limit : Int) (text : String) : String :=
  let length := text.toList.length
  if limit = 0 ∨ (length : Int) ≤ limit then text
  else
    let skipped := if 0 ≤ limit then length - limit.toNat else (-limit).toNat
    String.ofList (text.toList.drop skipped)

/-- Adds the values that are neither empty nor known. -/
def addValues (known : List String) : List String → List String
  | [] => known
  | value :: rest =>
    if value.isEmpty || known.contains value then addValues known rest
    else addValues (known ++ [value]) rest

/-- The names of the secrets that some selected steps ask for. -/
def Selection.secretNames (selected : List Selection) : List String :=
  selected.flatMap fun selection => selection.step.secrets.values

namespace Executor

/-- The same executor amid another system. -/
def amid (executor : Executor) (system : System) : Executor :=
  { executor with toSystem := system }

/--
The executor to which some names are secrets of every job: their values are masked in all output, and
neither they nor their values stay in the environment that jobs inherit.
-/
def guarding (executor : Executor) (names : List String) : Executor :=
  let values := addValues executor.protectedValues (names.filterMap executor.secrets.value?)
  { executor with
    protectedValues := values
    baseEnv := Environment.scrub executor.baseEnv values names }

/-- Treats some names as secrets of every job. Each of them is looked up for it. -/
def protect (executor : Executor) (names : List String) : Except Crash Executor :=
  match executor.secrets.crashAmong? names with
  | some crash => .error crash
  | none => .ok (executor.guarding names)

/-- The values that a job must not show: the protected ones and the secrets of its selected steps. -/
def redactorFor (executor : Executor) (selected : List Selection) : Redactor :=
  (Redactor.ofList executor.protectedValues).addAll
    ((Selection.secretNames selected).filterMap executor.secrets.value?)

/-- The values of the secrets of a step, under the variables it gives them to. -/
def resolveSecrets (provider : SecretProvider) :
    List (String × String) → Except SecretError (List (String × String))
  | [] => .ok []
  | (variableName, secret) :: rest => do
    let value ← provider.get secret
    return (variableName, value) :: (← resolveSecrets provider rest)

/-- The record of a failed step. -/
def failedRecord (executor : Executor) (job : JobInstance) (redactor : Redactor) (step : Step)
    (exitCode : Option Int) (error output : String) : StepRecord where
  name := step.name
  outcome := .failure
  exitCode := exitCode
  startedAt := some executor.now
  finishedAt := some executor.now
  output := trimToLimit executor.outputLimit (redactor.redact output)
  error := some (StepFailure.message ⟨job.name, step.name, exitCode, redactor.redact error⟩)

/-- The time limit of a step. -/
def timeoutOf (executor : Executor) (step : Step) : Option Seconds :=
  step.timeout <|> executor.stepTimeout

/-- The record of a step whose command gave a result. -/
def recordOf (executor : Executor) (job : JobInstance) (redactor : Redactor) (step : Step) :
    CommandResult → Except Abort StepRecord
  | .exited code output =>
    if code = 0 then
      .ok {
        name := step.name
        outcome := .success
        exitCode := some 0
        startedAt := some executor.now
        finishedAt := some executor.now
        output := trimToLimit executor.outputLimit (redactor.redact output) }
    else
      .ok (executor.failedRecord job redactor step (some code)
        ("command exited with " ++ Value.intText code) output)
  | .timedOut captured =>
    let limit := ((executor.timeoutOf step).map Seconds.text).getD "None"
    .ok (executor.failedRecord job redactor step (some timeoutExitCode)
      ("timed out after " ++ limit ++ "s") captured.read)
  | .refused kind text =>
    .ok (executor.failedRecord job redactor step none (kind ++ ": " ++ text) "")
  | .crashed crash => .error (.crashed crash)
  | .interrupted => .error .interrupted

/-- What keeps a step from making its call. -/
inductive Obstacle
  | complaint (text : String)
  | crash (crash : Crash)
  deriving DecidableEq, Repr

/-- What an error of a secret is to the step that needs it. -/
def obstacleOf : SecretError → Obstacle
  | .missing name => .complaint (SecretError.missing name).message
  | .crashed crash => .crash crash

/-- The directory in which a step runs. It must exist. -/
def directoryOf (executor : Executor) (step : Step) : Except Obstacle String := do
  let directory ← (executor.directories.resolve (step.cwd.getD "")).mapError .crash
  let found ← (executor.directories.isDirectory directory).mapError .crash
  if found then return directory else throw (.complaint ("cwd not found: " ++ directory))

/-- The call that a step makes, or what keeps it from being made. -/
def callOf (executor : Executor) (step : Step) : Except Obstacle CommandCall := do
  let secrets ← (resolveSecrets executor.secrets step.secrets.entries).mapError obstacleOf
  let directory ← executor.directoryOf step
  return {
    command := step.command
    directory := directory
    env := (executor.baseEnv.merge step.env).insertAll secrets
    timeout := executor.timeoutOf step }

/-- Runs one step: the call it makes, if any, and its record. -/
def runStep (executor : Executor) (job : JobInstance) (redactor : Redactor) (step : Step) :
    Option CommandCall × Except Abort StepRecord :=
  match executor.callOf step with
  | .error (.complaint text) => (none, .ok (executor.failedRecord job redactor step none text ""))
  | .error (.crash crash) => (none, .error (.crashed crash))
  | .ok call => (some call, executor.recordOf job redactor step (executor.runner call))

/-- The record of a step that does not run. -/
def skippedRecord (step : Step) : StepRecord where
  name := step.name
  outcome := .skipped

/-- What running some steps did, and their records unless it was broken off. -/
structure StepsRun where
  begun : List String
  calls : List CommandCall
  result : Except Abort (List StepRecord)

/-- The same run with a record in front. -/
def StepsRun.withRecord (record : StepRecord) (run : StepsRun) : StepsRun :=
  { run with result := run.result.map (record :: ·) }

/--
Runs the steps of a job that are selected, given with their places; each selection serves for one step.
Every step has the executor of its place. After a failure no step runs.
-/
def runSteps (executors : Nat → Executor) (job : JobInstance) (redactor : Redactor) :
    (selected : List Selection) → (failed : Bool) → List (Step × Nat) → StepsRun
  | _, _, [] => ⟨[], [], .ok []⟩
  | selected, failed, (step, place) :: rest =>
    if !selected.any (Selection.fits step place) then
      (runSteps executors job redactor selected failed rest).withRecord (skippedRecord step)
    else
      let selected := selected.eraseP (Selection.fits step place)
      if failed then
        (runSteps executors job redactor selected failed rest).withRecord (skippedRecord step)
      else
        let (call, result) := (executors place).runStep job redactor step
        match result with
        | .error abort => ⟨[step.name], call.toList, .error abort⟩
        | .ok record =>
          let run := runSteps executors job redactor selected (record.outcome == .failure) rest
          { begun := step.name :: run.begun
            calls := call.toList ++ run.calls
            result := run.result.map (record :: ·) }

/-- The record of a job whose steps have these records. -/
def jobRecord (executor : Executor) (job : JobInstance) (steps : List StepRecord) : JobRecord :=
  let broken := steps.find? fun record => record.outcome == .failure
  { id := job.id
    title := job.title
    outcome := if broken.isSome then .failure else .success
    steps := steps
    startedAt := some executor.now
    finishedAt := some executor.now
    reason := (broken.bind StepRecord.error).getD "" }

/--
Executes some steps of a job, each amid the system of its place; those of its steps that are not selected
are skipped. All secrets of the selected steps are looked up before the first of them is begun.
-/
def runAmid (executor : Executor) (systems : Nat → System) (job : JobInstance)
    (selected : List Selection) : JobRun :=
  match executor.secrets.crashAmong? (Selection.secretNames selected) with
  | some crash => ⟨[], [], .error (.crashed crash)⟩
  | none =>
    let run := runSteps (fun place => executor.amid (systems place)) job
      (executor.redactorFor selected) selected false job.steps.zipIdx
    { begun := run.begun
      calls := run.calls
      result := run.result.map (executor.jobRecord job) }

/-- Executes some steps of a job amid the system that the executor has. -/
def run (executor : Executor) (job : JobInstance) (selected : List Selection) : JobRun :=
  executor.runAmid (fun _ => executor.toSystem) job selected

end Executor
end CiPipeline
