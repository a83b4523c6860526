import CiPipeline.Condition
import CiPipeline.Job.InstanceId
import CiPipeline.Number.Shortest
import CiPipeline.Table
import CiPipeline.Trigger
import CiPipeline.Value

/-!
Jobs as they are declared and as they run. A template has steps, needs and the axes of a matrix; an
instance is a template at one coordinate of its matrix, with the coordinate written into its steps.
-/

namespace CiPipeline

/-- Variables with their values. -/
abbrev Environment := Table String String

/-- A time in seconds, as it was declared. -/
inductive Seconds
  | whole (n : Int)
  | binary (x : Number.Binary64)
  deriving DecidableEq, Repr

namespace Seconds

/-- The text of a time. -/
def text : Seconds → String
  | whole n => Value.intText n
  | binary x => x.text

/-- Whether two times are one amount, however they are written; what is no number is no amount. -/
def sameAmount : Seconds → Seconds → Bool
  | whole m, whole n => m == n
  | whole m, binary y => y.isInt m
  | binary x, whole n => x.isInt n
  | binary x, binary y => x.sameValue y

end Seconds

/--
One command of a job. `secrets` gives variables the names of secrets, whose values are looked up when
the command is about to run.
-/
structure Step where
  name : String
  command : String
  cwd : Option String := none
  env : Environment := .empty
  secrets : Table String String := .empty
  condition : Option Condition := none
  timeout : Option Seconds := none
  deriving DecidableEq

/-- Whether two steps are declared alike; the order of variables does not count. -/
def Step.alike (a b : Step) : Bool :=
  a.name == b.name && a.command == b.command && a.cwd == b.cwd && a.env.sameEntries b.env &&
    a.secrets.sameEntries b.secrets && a.condition == b.condition &&
    match a.timeout, b.timeout with
    | none, none => true
    | some x, some y => x.sameAmount y
    | _, _ => false

/-- A step that was selected to run, and its place among the steps of the job if it is one of them. -/
structure Selection where
  step : Step
  place : Option Nat := none
  deriving DecidableEq

namespace Selection

/-- The steps of a job, each selected at its place. -/
def ofSteps (steps : List Step) : List Selection :=
  steps.zipIdx.map fun (step, place) => ⟨step, some place⟩

/-- Whether a selection is good for the step at a place: it is that very step, or one declared alike. -/
def fits (step : Step) (place : Nat) (selection : Selection) : Bool :=
  selection.place == some place || step.alike selection.step

end Selection

/-- The key of an entry of a rule: the name of an axis, or the text of what can name none. -/
inductive ExclusionKey
  | axis (name : String)
  | foreign (text : String)
  deriving DecidableEq, Repr

/-- The text of a key. -/
def ExclusionKey.text : ExclusionKey → String
  | axis name => name
  | foreign text => text

/--
A rule that takes coordinates out of a matrix: the values that some axes have there. The keys of the
entries are distinct as they were written, though two of them may have one text.
-/
structure Exclusion where
  entries : List (ExclusionKey × String)
  deriving DecidableEq

/-- The entries of a rule by the texts of their keys; of those with one text the last gives the value. -/
def Exclusion.texts (rule : Exclusion) : Table String String :=
  .ofList (rule.entries.map fun (key, value) => (key.text, value))

/-- A declared job. The axes of its matrix are in the order of their declaration. -/
structure JobTemplate where
  name : String
  steps : List Step
  needs : List String := []
  axes : Table String (List String) := .empty
  exclude : List Exclusion := []
  condition : Option Condition := none
  env : Environment := .empty
  displayName : Option String := none
  deriving DecidableEq

/-- A template at one coordinate of its matrix. -/
structure JobInstance where
  id : InstanceId
  template : JobTemplate
  steps : List Step
  env : Environment
  deriving DecidableEq

namespace JobInstance

/-- The text of the identity of the instance. -/
def name (job : JobInstance) : String :=
  job.id.text

/-- The declared display name at the coordinate, or the identity where none is declared. -/
def title (job : JobInstance) : String :=
  match job.template.displayName with
  | none => job.name
  | some shown => if shown.isEmpty then job.name else InstanceId.label shown job.id.coordinate

/-- The condition on which the instance runs. -/
def condition (job : JobInstance) : Option Condition :=
  job.template.condition

end JobInstance

/-- A declared pipeline. -/
structure Pipeline where
  name : String
  triggers : TriggerRules
  jobs : List JobTemplate
  deriving DecidableEq

namespace Pipeline

/-- The first job with a name. -/
def job? (pipeline : Pipeline) (name : String) : Option JobTemplate :=
  pipeline.jobs.find? fun job => job.name == name

/-- Every secret that a step of a job asks for, in the order of declaration. -/
def secretNames (pipeline : Pipeline) : List String :=
  (pipeline.jobs.flatMap fun job => job.steps.flatMap fun step => step.secrets.values).eraseDups

/-- The names of the jobs, in order. -/
def jobNames (pipeline : Pipeline) : List String :=
  pipeline.jobs.map JobTemplate.name

end Pipeline
end CiPipeline
