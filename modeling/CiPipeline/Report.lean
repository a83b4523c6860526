import CiPipeline.Event
import CiPipeline.Job
import CiPipeline.Timestamp

/-!
Records of steps and jobs, and the report of a run that is made of them.
-/

namespace CiPipeline

/-- The time from a start to a finish, where both are known. -/
def durationBetween (start finish : Option Timestamp) : Option Number.Binary64 := do
  return (← start).secondsBetween (← finish)

/-- What happened to one step. The output is redacted already. -/
structure StepRecord where
  name : String
  outcome : Outcome
  exitCode : Option Int := none
  startedAt : Option Timestamp := none
  finishedAt : Option Timestamp := none
  output : String := ""
  error : Option String := none
  deriving DecidableEq, Repr

/-- How long the step took. -/
def StepRecord.duration (record : StepRecord) : Option Number.Binary64 :=
  durationBetween record.startedAt record.finishedAt

/-- What happened to one job. -/
structure JobRecord where
  id : InstanceId
  outcome : Outcome
  steps : List StepRecord := []
  startedAt : Option Timestamp := none
  finishedAt : Option Timestamp := none
  reason : String := ""
  title : String := ""
  deriving DecidableEq, Repr

namespace JobRecord

/-- How long the job took. -/
def duration (record : JobRecord) : Option Number.Binary64 :=
  durationBetween record.startedAt record.finishedAt

/-- The first step that failed. -/
def failedStep? (record : JobRecord) : Option StepRecord :=
  record.steps.find? fun step => step.outcome == .failure

end JobRecord

/-- The records of a run so far, in the order of recording. The first record of a job stays. -/
abbrev Records := Table InstanceId JobRecord

namespace Records

/-- Adds a record, unless its job has one already. -/
def add (records : Records) (record : JobRecord) : Records :=
  records.insertNew record.id record

/-- The records in a given order of their jobs, the others after them. -/
def ordered (records : Records) (order : List InstanceId) : Records :=
  let first : Records := .ofList (order.filterMap fun id => (records.get? id).map (id, ·))
  first.merge (records.filter fun id _ => !order.contains id)

end Records

/-- The report of one run. -/
structure RunReport where
  pipeline : String
  event : Event
  triggered : Bool
  jobs : Records := .empty
  startedAt : Option Timestamp := none
  finishedAt : Option Timestamp := none
  triggerReason : String := ""
  deriving DecidableEq

namespace RunReport

/-- The report of a run that was not started. -/
def notTriggered (pipeline : String) (event : Event) (reason : String) (now : Timestamp) :
    RunReport where
  pipeline := pipeline
  event := event
  triggered := false
  startedAt := some now
  finishedAt := some now
  triggerReason := reason

/-- The report of a finished run. -/
def ofRecords (pipeline : String) (event : Event) (records : Records) (order : List InstanceId)
    (triggerReason : String) (now : Timestamp) : RunReport where
  pipeline := pipeline
  event := event
  triggered := true
  jobs := records.ordered order
  startedAt := some now
  finishedAt := some now
  triggerReason := triggerReason

/-- A run succeeds if every job that was neither skipped nor cancelled did. -/
def outcome (report : RunReport) : Outcome :=
  if !report.triggered then .skipped
  else if report.jobs.values.any fun record => record.outcome == .failure then .failure
  else .success

/-- The exit status that stands for the outcome. -/
def exitCode (report : RunReport) : Int :=
  if report.outcome = .failure then 1 else 0

/-- The record of the first job whose identity has a given text. -/
def byText? (report : RunReport) (text : String) : Option JobRecord :=
  (report.jobs.entries.find? fun entry => entry.1.text == text).map Prod.snd

/-- The record of a job. -/
def byId? (report : RunReport) (id : InstanceId) : Option JobRecord :=
  report.jobs.get? id

/-- The records of all instances of a template. -/
def byTemplate (report : RunReport) (template : String) : List JobRecord :=
  (report.jobs.entries.filter fun entry => entry.1.template == template).map Prod.snd

end RunReport
end CiPipeline
