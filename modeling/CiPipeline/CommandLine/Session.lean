import CiPipeline.Checkout
import CiPipeline.CommandLine.Help
import CiPipeline.CommandLine.Terminal
import CiPipeline.Report.Value
import CiPipeline.Run
import CiPipeline.Secret.File
import CiPipeline.Workflow

/-!
One use of the program: from the words of a command line to what is printed, the status it ends with and
the report that it leaves. Planning and running share how the workflow is found, how the event is made and
which declarations are refused.
-/

namespace CiPipeline.CommandLine

/-- Everything around one use of the program. -/
structure Surroundings where
  workspace : Workspace
  /-- How the directories of steps are found. -/
  directories : Directories := workspace.directories
  environment : Environment
  processors : Option Nat
  runner : CommandRunner
  checkout : Checkout
  now : Timestamp
  /-- The name by which the program is called. -/
  program : String := programName
  duration : InstanceId → Nat := fun _ => 1
  /-- How what is shown is put into bytes. -/
  terminal : Encoding := .utf8
  /-- How the names of variables are put into bytes. -/
  names : Encoding := .ofNames

/-- An error of which nothing is made but the end of the program. -/
inductive UnhandledError
  | document (error : DocumentError)
  /-- The way to a file that was named leads nowhere. -/
  | unreachable (fault : PathFault)
  /-- A line holds what no terminal can show. -/
  | unshowable
  deriving DecidableEq, Repr

/-- How a use of the program ends. -/
inductive Ending
  | exited (status : Int)
  /-- The command line is no request. -/
  | rejected (fault : UsageFault)
  /-- Nothing was made of an error. -/
  | escaped (error : UnhandledError)
  deriving DecidableEq, Repr

/-- One use of the program: what it printed, how it ended and what it did. -/
structure Session where
  printed : Printed := {}
  ending : Ending
  calls : List CommandCall := []
  /-- The report that was left, and where. -/
  report : Option (Path × RunReport) := none

namespace Session

/-- The same session after something else was printed. -/
def after (printed : Printed) (session : Session) : Session :=
  { session with printed := printed ++ session.printed }

/-- The session that some steps make, each of which may end it early. -/
def settle : Except Session Session → Session
  | .ok session => session
  | .error session => session

end Session

/-- The status of a configuration that is refused. -/
def configurationStatus : Int := 2

/-- The status of a run that is interrupted. -/
def interruptedStatus : Int := 130

/-- The status of a run that an error ended. -/
def failureStatus : Int := 1

/-- Ends with a complaint about the configuration. -/
def refuse (complaint : Printed) : Session where
  printed := complaint
  ending := .exited configurationStatus

/-- Ends with a complaint about a declaration. -/
def refuseDeclaration (error : ConfigurationError) : Session :=
  refuse (Console.error "Invalid pipeline" error.message)

/-- The kind of a document error, for those who look for its cause. -/
def documentErrorKind : DocumentError → String
  | .configuration _ => "ConfigurationError"
  | .namelessStep => "IndexError"
  | .eventNotScalar _ => "TypeError"
  | .unreachable fault _ => fault.kind
  | .homeless => "RuntimeError"
  | .noValue fault => fault.kind

/-- The kind of an error of which nothing is made. -/
def UnhandledError.kind : UnhandledError → String
  | document error => documentErrorKind error
  | unreachable fault => fault.kind
  | unshowable => Encoding.crashKind

/-- The kind of a schedule error. -/
def scheduleErrorKind : ScheduleError → String
  | .unfinished _ => "RuntimeError"
  | .noWorkers | .transition _ | .interrupted => "ValueError"

/-- Ends with an error of which nothing is made. -/
def escape (error : UnhandledError) : Session where
  ending := .escaped error

/-- Whether a text leads to something in the workspace. -/
def isFound (s : Surroundings) (file : String) : Except Session Bool :=
  (s.workspace.leadsTo s.workspace.contains file).mapError fun fault =>
    escape (.unreachable fault)

/-- The text of the workflow file that is meant: the named one, or the only one with a default name. -/
def findWorkflow (s : Surroundings) (named : Option String) : Except Session String := do
  match named.filter (!·.isEmpty) with
  | some file =>
    if ← isFound s file then return file
    else
      throw (refuse (Console.error "Workflow file not found"
        ("Could not find workflow file: " ++ file) []
        (some "Create a workflow file or specify a different path:\n  cigraph run --workflow ci.yml")))
  | none =>
    match ← defaultWorkflows.filterM (isFound s) with
    | [file] => return file
    | [] =>
      throw (refuse (Console.error "No workflow file found" "Could not find any workflow files."
        ("Looked for:" :: defaultWorkflows.map ("  " ++ ·))
        (some ("Create cigraph.yml or specify a workflow explicitly:\n" ++
          "  cigraph run --workflow ci.yml"))))
    | files =>
      throw (refuse (Console.error "Multiple workflow files found"
        "Found multiple workflow files. Please specify which one to use:" files
        (some "Specify a workflow explicitly:\n  cigraph run --workflow cigraph.yml")))

/-- The action of a pull request of which none is named. -/
def defaultAction : String := "opened"

/-- The ref that is meant: the named one, or that of the checkout, with a remark on it. -/
def findRef (s : Surroundings) (console : Console) (named : Option String) :
    Except Session (String × Printed) :=
  match named, s.checkout.currentRef with
  | some ref, _ => .ok (ref, {})
  | none, .ok ref => .ok (ref, console.debugNote ("Using git ref: " ++ ref))
  | none, .error _ =>
    .error (refuse (Console.error "Could not determine git ref"
      "No --ref given and the current directory is not a usable git checkout." []
      (some "Specify the ref explicitly:\n  cigraph run --ref refs/tags/1.2.3")))

/-- The event that some options mean, at a ref. -/
def EventOptions.event (options : EventOptions) (ref : String) : Event where
  kind := options.kind
  ref := ref
  baseRef := options.base
  action :=
    if options.kind = .pullRequest then some (options.action.getD defaultAction)
    else options.action
  refType := options.refType

/-- Shows the decision about an event and the stages of a workflow. -/
def plan (s : Surroundings) (debug : Bool) (options : EventOptions) : Session :=
  .settle do
    let file ← findWorkflow s options.workflow
    let (ref, remark) ← findRef s { debug } options.ref
    let planned := do
      let pipeline ← Pipeline.ofFile s.workspace file
      (Plan.ofPipeline pipeline (options.event ref)).mapError DocumentError.configuration
    match planned with
    | .error (.configuration error) => return (refuseDeclaration error).after remark
    | .error error => return { printed := remark, ending := .escaped (.document error) }
    | .ok plan =>
      let printed := remark ++ Console.header ("Plan: " ++ plan.pipeline.name) ++
        Console.trigger plan.decision.runs plan.decision.reason ++ Console.plan plan.stages
      match unshowable? s.terminal printed with
      | none => return { printed := printed, ending := .exited 0 }
      | some (shown, _) => return { printed := shown, ending := .escaped .unshowable }

/-- Where secrets come from: a file if one is named, and the environment after it. -/
def findSecrets (s : Surroundings) (options : RunOptions) :
    Except SecretsFileError SecretProvider :=
  let environment := SecretProvider.ofProcess s.names options.secretPrefix s.environment
  match options.secretsFile.filter (!·.isEmpty) with
  | none => .ok environment
  | some file => (SecretProvider.ofFile s.workspace file).map fun secrets =>
      SecretProvider.chain [secrets, environment]

/-- The changes to the settings that some options ask for. -/
def RunOptions.changes (options : RunOptions) : Settings.Changes where
  maxWorkers := options.workers
  stepTimeout := options.timeout.map .binary
  cancelledSatisfiesNeeds := options.cancelledSatisfiesNeeds
  failFast := options.failFast

/-- Ends with an error that is no matter of configuration. -/
def failWith (console : Console) (kind text : String) : Session where
  printed := console.exception kind text
  ending := .exited failureStatus

/-- Ends with a crash that is no matter of configuration. -/
def crashWith (console : Console) (crash : Crash) : Session :=
  failWith console crash.kind crash.text

/-- The end of a session at a line that cannot be shown, after what was shown before it. -/
def cutOff (terminal : Encoding) (console : Console) (cut : Printed × String) : Session :=
  (crashWith console (terminal.crash cut.2)).after cut.1

/-- The end of a session whose run has no report. -/
def brokenOff (console : Console) : RunError → Session
  | .configuration error => refuseDeclaration error
  | .schedule .interrupted =>
    { printed := Console.info "\nInterrupted by user", ending := .exited interruptedStatus }
  | .schedule error => failWith console (scheduleErrorKind error) error.message
  | .crashed crash => crashWith console crash

/-- The end of a session whose run has a report, which is left in a file if one is named. -/
def reported (s : Surroundings) (console : Console) (options : RunOptions) (report : RunReport) :
    Session :=
  let results := if report.triggered then Console.results report else {}
  match options.reportFile.filter (!·.isEmpty) with
  | none => { printed := results, ending := .exited report.exitCode }
  | some file =>
    match s.workspace.locate file with
    | .ok path =>
      { printed := results ++ console.debugNote ("Report written to " ++ file)
        ending := .exited report.exitCode
        report := some (path, report) }
    | .error fault => { printed := results, ending := .escaped (.unreachable fault) }

/-- The lines that tell of a run before it begins. -/
def opening (pipeline : Pipeline) (file : String) (event : Event) : Printed :=
  Console.runStarted pipeline.name ((Path.names file).getLast?.getD "")
    (event.kind.name ++ " " ++ event.ref) pipeline.jobs.length

/-- The run of a pipeline, with its steps announced. -/
def announcedRun (s : Surroundings) (settings : Settings) (secrets : SecretProvider)
    (pipeline : Pipeline) (event : Event) : RunResult :=
  pipeline.run event settings
    (settings.executor secrets ⟨s.runner, s.directories⟩ s.environment s.now) s.duration
    (announced s.terminal)

/-- The end of a session after the run of a pipeline. What comes after a line that cannot be shown is
not done any more. -/
def concluded (s : Surroundings) (console : Console) (options : RunOptions) (started : Printed)
    (result : RunResult) : Session :=
  let printed := started ++ result.printed console true
  match unshowable? s.terminal printed, result.report with
  | some cut, _ =>
    { cutOff s.terminal console cut with calls := (result.shown s.terminal console).calls }
  | none, .error error => { (brokenOff console error).after printed with calls := result.calls }
  | none, .ok report => { (reported s console options report).after printed with calls := result.calls }

/-- Runs a workflow. -/
def run (s : Surroundings) (debug : Bool) (settings : Settings) (options : RunOptions) : Session :=
  .settle do
    let console : Console := ⟨debug, options.showOutput⟩
    let file ← findWorkflow s options.event.workflow
    let (ref, remark) ← findRef s console options.event.ref
    let event := options.event.event ref
    let settings := settings.override options.changes
    match Pipeline.ofFile s.workspace file with
    | .error (.configuration error) => return (refuseDeclaration error).after remark
    | .error error =>
      return (failWith console (documentErrorKind error) error.message).after remark
    | .ok pipeline =>
      let started := remark ++ opening pipeline file event
      match unshowable? s.terminal started, findSecrets s options with
      | some cut, _ => return cutOff s.terminal console cut
      | none, .error (.configuration error) => return (refuseDeclaration error).after started
      | none, .error error => return (failWith console error.kind error.message).after started
      | none, .ok secrets =>
        return concluded s console options started (announcedRun s settings secrets pipeline event)

/-- Shows the lines of a help. -/
def help (lines : List String) : Session where
  printed := Console.info ("\n".intercalate lines)
  ending := .exited 0

/-- The session of a command line. -/
def sessionOf (s : Surroundings) (args : List String) : Session :=
  match Invocation.ofArgs args with
  | .error fault => { ending := .rejected fault }
  | .ok ⟨_, none⟩ => help (groupHelp s.program)
  | .ok ⟨debug, some (command, words)⟩ =>
    match Settings.load s.environment s.processors with
    | .error error => refuse (Console.error "Invalid configuration" error.message)
    | .ok settings =>
      match Request.ofWords s.workspace command words with
      | .error (.usage fault) => { ending := .rejected fault }
      | .error (.report fault) => escape (.unreachable fault)
      | .ok .help => help (command.help s.program)
      | .ok (.plan options) => plan s debug options
      | .ok (.run options) => run s debug settings options

/-- Uses the program with the words of a command line. -/
def execute (s : Surroundings) (args : List String) : Session :=
  let session := sessionOf s args
  { session with printed := { session.printed with err := session.printed.err.map s.terminal.spellOut } }

end CiPipeline.CommandLine
