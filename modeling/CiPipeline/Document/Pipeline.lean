import CiPipeline.Declaration
import CiPipeline.Document.Schema
import CiPipeline.Text.Lines
import CiPipeline.Workspace
import CiPipeline.Yaml.Fault

/-!
The pipeline that a document declares. The document is read as a whole first; conditions are read job by
job after that, and the patterns of the events last.
-/

namespace CiPipeline

/-- The ways in which a value has parts. -/
inductive Composite
  | list
  | set
  | mapping
  deriving DecidableEq, Repr

/-- How a value is composed, if it has parts; for a pair, how the first of its parts is that has some. -/
def Composite.ofValue? : Value → Option Composite
  | .list _ => some list
  | .set _ => some set
  | .mapping _ => some mapping
  | .pair first second => ofValue? first <|> ofValue? second
  | .knot _ content => ofValue? content
  | _ => none

/-- Why a document is no pipeline. -/
inductive DocumentError
  | configuration (error : ConfigurationError)
  /-- A step has no name, and its command is blank, so that nothing is left to name it by. -/
  | namelessStep
  /-- Where the name of an event belongs stands something that has parts. -/
  | eventNotScalar (found : Composite)
  /-- The document has no text to read. -/
  | unreachable (fault : PathFault) (path : String)
  /-- The way to the document begins in a home that is not known. -/
  | homeless
  /-- A scalar of the document has no value. -/
  | noValue (fault : Yaml.ValueFault)
  deriving DecidableEq, Repr

namespace DocumentError

/-- The wording of a document error. -/
def message : DocumentError → String
  | configuration error => error.message
  | namelessStep => "list index out of range"
  | eventNotScalar .list => "unhashable type: 'list'"
  | eventNotScalar .set => "unhashable type: 'set'"
  | eventNotScalar .mapping => "unhashable type: 'dict'"
  | unreachable fault path => fault.message path
  | homeless => "Could not determine home directory."
  | noValue fault => fault.message

end DocumentError

/-- The name of a step: the declared one, or the first line of its command. -/
def StepDocument.label? (step : StepDocument) : Option String :=
  match step.name with
  | none => (Text.lines (Text.strip step.command)).head?
  | some name => if name.isEmpty then (Text.lines (Text.strip step.command)).head? else some name

/-- The step that is declared. -/
def StepDocument.toStep (document : StepDocument) : Except DocumentError Step :=
  match document.label? with
  | none => .error .namelessStep
  | some name =>
    (Step.declare {
      name := name
      command := document.command
      cwd := document.cwd
      env := document.env.mapValues .text
      secrets := document.secrets
      condition := document.condition.map .expression
      timeout := document.timeout.map .binary }).mapError .configuration

/-- A fault of parts that came from a document. -/
def BuildError.inDocument : BuildError → ConfigurationError
  | configuration error => error
  | job fault => .declaration (.job fault)

/-- The template that is declared under a name. -/
def JobDocument.toTemplate (name : String) (document : JobDocument) :
    Except DocumentError JobTemplate := do
  let steps ← document.steps.mapM StepDocument.toStep
  (JobTemplate.declare {
    name := name
    steps := steps
    needs := document.needs
    axes := .ofList document.matrix.axes
    exclude := document.matrix.exclude
    condition := document.condition.map .expression
    env := document.env.mapValues .text
    displayName := document.name }).mapError (.configuration ∘ BuildError.inDocument)

/-- The filter that some patterns write, where there are any. -/
def readFilter : Option (List String) → Except ConfigurationError (Option RefFilter)
  | none => .ok none
  | some patterns => ((RefFilter.ofTexts patterns).map some).mapError .pattern

/-- The filters of a push that are declared. -/
def PushDocument.toTrigger (document : PushDocument) : Except ConfigurationError PushTrigger := do
  return ⟨← readFilter document.tags, ← readFilter document.branches⟩

/-- The filters of a pull request that are declared. -/
def PullRequestDocument.toTrigger (document : PullRequestDocument) :
    Except ConfigurationError PullRequestTrigger := do
  return ⟨← readFilter document.branches, document.types.getD defaultPullRequestTypes⟩

/-- The rules that are declared. -/
def EventsDocument.toRules (document : EventsDocument) : Except ConfigurationError TriggerRules := do
  return ⟨← document.push.mapM PushDocument.toTrigger,
    ← document.pullRequest.mapM PullRequestDocument.toTrigger, document.manual⟩

/-- The pipeline that is declared. -/
def PipelineDocument.toPipeline (document : PipelineDocument) : Except DocumentError Pipeline := do
  let jobs ← document.jobs.entries.mapM fun (name, job) => job.toTemplate name
  (do Pipeline.declare document.name (← document.events.toRules) jobs).mapError .configuration

namespace Document

/-- The key of the events. -/
def eventsKey : String := "on"

/-- Whether a key is the one that a bare `on` is read as. -/
def isTrue (key : Value) : Bool :=
  Value.sameKey key (.bool true)

/-- The fields of a document in which a bare `on`, read as a truth value, is a text again. -/
def restoreEventsKey (fields : Fields) : Fields :=
  if (Value.field? eventsKey fields).isSome then fields
  else
    match fields.find? fun entry => isTrue entry.1 with
    | some (_, events) => (fields.filter fun entry => !isTrue entry.1) ++ [(.text eventsKey, events)]
    | none => fields

/-- What the first of the listed events is that is no scalar. -/
def compositeEvent? (fields : Fields) : Option Composite :=
  match (Value.field? eventsKey fields).bind Value.listed? with
  | some events => events.findSome? Composite.ofValue?
  | none => none

end Document

/-- The pipeline that a document declares. -/
def Pipeline.ofDocument (document : Value) : Except DocumentError Pipeline :=
  match document.entries? with
  | some entries =>
    let fields := Document.restoreEventsKey entries
    match Document.compositeEvent? fields, PipelineDocument.read (.mapping fields) with
    | some found, _ => .error (.eventNotScalar found)
    | none, .refused issues => .error (.configuration (.declaration (.invalid issues)))
    | none, .meaning document => document.toPipeline
  | none => .error (.configuration (.declaration .notAMapping))

end CiPipeline
