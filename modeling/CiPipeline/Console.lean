import CiPipeline.Schedule
import CiPipeline.Text.Lines

/-!
What the console shows of a run. Everything shown is a list of lines; complaints go to their own
channel, beside the lines about the run.
-/

namespace CiPipeline

/-- Lines for the two channels of a terminal. -/
structure Printed where
  out : List String := []
  err : List String := []
  deriving DecidableEq, Repr

namespace Printed

/-- One output after the other. -/
def append (a b : Printed) : Printed :=
  ⟨a.out ++ b.out, a.err ++ b.err⟩

instance : Append Printed := ⟨append⟩

/-- Several outputs, one after the other. -/
def concat (outputs : List Printed) : Printed :=
  outputs.foldl append {}

/-- The text that some lines make, each ended by a line feed. -/
def textOf (lines : List String) : String :=
  String.join (lines.map (· ++ "\n"))

end Printed

/-- How much the console shows. -/
structure Console where
  debug : Bool := false
  /-- Shows the output of all steps, not only of those of failed jobs. -/
  showOutput : Bool := false
  deriving DecidableEq, Repr

namespace Console

/-- Lines about the run. -/
def emit (lines : List String) : Printed where
  out := lines

/-- Complaints. -/
def complain (lines : List String) : Printed where
  err := lines

/-- A title over a rule of its own length. -/
def header (title : String) : Printed :=
  emit ["\n" ++ title, String.ofList (List.replicate title.length '-')]

/-- The beginning of a run. -/
def runStarted (pipeline workflow event : String) (jobCount : Nat) : Printed :=
  emit [
    "\nRUN STARTED",
    "Pipeline: " ++ pipeline,
    "Workflow: " ++ workflow,
    "Event: " ++ event,
    "Jobs: " ++ toString jobCount,
    ""]

/-- The decision about the event. -/
def trigger (runs : Bool) (reason : String) : Printed :=
  emit ["TRIGGER: " ++ (if runs then "run" else "not triggered") ++ " (" ++ reason ++ ")"]

/-- A job begins. -/
def jobStart (name : String) : Printed :=
  emit ["\nJOB STARTED: " ++ name]

/-- A step begins. -/
def step (job name : String) : Printed :=
  emit ["[" ++ job ++ "] STEP: " ++ name]

/-- How many of the last lines of an output are shown. -/
def tailLength : Nat := 20

/-- The last lines of an output. -/
def tailOf (output : String) : String :=
  let lines := Text.lines output
  "\n".intercalate (lines.drop (lines.length - tailLength))

/-- The text without the blanks at its end. -/
def trimEnd (s : String) : String :=
  String.ofList (s.toList.reverse.dropWhile Text.isBlank).reverse

/-- The output of a step under its name; an empty output is not shown. -/
def stepOutput (console : Console) (record : StepRecord) : List String :=
  if record.output.isEmpty then []
  else
    ["--- " ++ record.name ++ " ---",
      trimEnd (if console.debug then record.output else tailOf record.output)]

/-- The end of a job, with what its steps printed where that is of interest. -/
def jobResult (console : Console) (record : JobRecord) : Printed :=
  let name := record.id.text
  let title :=
    if !record.title.isEmpty && record.title != name then ["Name: " ++ record.title] else []
  let reason :=
    if !record.reason.isEmpty && record.outcome != .success then ["Reason: " ++ record.reason]
    else []
  let duration := record.duration.toList.map fun seconds => "Duration: " ++ seconds.tenths ++ "s"
  let output :=
    if record.outcome = .failure || console.showOutput then
      record.steps.flatMap console.stepOutput
    else []
  emit (("JOB " ++ record.outcome.title ++ ": " ++ name) :: title ++ reason ++ duration ++ output)

/-- The stages of a plan. -/
def plan (stages : List (List String)) : Printed :=
  emit (stages.zipIdx.flatMap fun (stage, index) =>
    ("Stage " ++ toString (index + 1) ++ ":") :: stage.map ("  " ++ ·))

/-- The rule around the heading of the results. -/
def rule : String :=
  String.ofList (List.replicate 40 '=')

/-- The outcome of every job and of the whole run. -/
def results (report : RunReport) : Printed :=
  emit (["", rule, "RESULTS", rule] ++
    report.jobs.entries.map (fun (id, record) => "  " ++ id.text ++ ": " ++ record.outcome.title) ++
    ["PIPELINE: " ++ report.outcome.title])

/-- A complaint, with details and with advice where there is some. -/
def error (title message : String) (details : List String := []) (suggestion : Option String := none) :
    Printed :=
  let advice := match suggestion with
    | some text => if text.isEmpty then [] else ["\n" ++ text]
    | none => []
  complain (["\nERROR: " ++ title, message] ++ details.map ("  " ++ ·) ++ advice)

/-- An error that ended the program; with `debug` its kind is named. -/
def exception (console : Console) (kind text : String) : Printed :=
  if console.debug then
    complain [if text.isEmpty then kind else kind ++ ": " ++ text]
  else complain ["Error: " ++ text]

/-- A remark. -/
def info (message : String) : Printed :=
  emit [message]

/-- A remark that is shown only with `debug`. -/
def debugNote (console : Console) (message : String) : Printed :=
  if console.debug then complain ["[DEBUG] " ++ message] else {}

/-- What the console shows of one notice. -/
def notice (console : Console) (showSteps : Bool) : Notice → Printed
  | .started id _ => jobStart id.text
  | .stepBegun id name => if showSteps then step id.text name else {}
  | .recorded record => console.jobResult record
  | .called _ | .finished _ _ => {}

/-- What the console shows of a log. -/
def notices (console : Console) (showSteps : Bool) (log : List Notice) : Printed :=
  .concat (log.map (console.notice showSteps))

end Console
end CiPipeline
