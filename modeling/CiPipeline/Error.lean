import CiPipeline.Condition.Error
import CiPipeline.Document.Issue
import CiPipeline.Job.InstanceId
import CiPipeline.Text.Order

/-!
Configuration errors: what can be wrong before any job is dispatched. Each error is its cause, and its
wording is in one function.
-/

namespace CiPipeline

/-- Why some parts are no job. -/
inductive JobFault
  | noSteps (job : String)
  | emptyAxis (job axis : String)
  /-- A value of the matrix has no text. -/
  | valueTooLong
  deriving DecidableEq, Repr

/-- The wording of a fault of a job. -/
def JobFault.message : JobFault → String
  | noSteps job => "job(" ++ Text.quoted job ++ ") must have at least one step"
  | emptyAxis job axis =>
    "job(" ++ Text.quoted job ++ ") matrix axis " ++ Text.quoted axis ++ " has no values"
  | valueTooLong => Value.tooLongText

/-- Why a document or a file is no pipeline. -/
inductive DeclarationError
  | notAMapping
  | invalid (issues : List Issue)
  | job (fault : JobFault)
  | emptyMatrix (job : String)
  | fileNotFound (path : String)
  | unknownFormat (file : String)
  | unreadable (file : String) (reason : String)
  deriving DecidableEq, Repr

/-- The wording of an issue in the message about a whole document. -/
def Issue.line (issue : Issue) : String :=
  let place := issue.place.map fun
    | .field name => name
    | .index n => toString n
  ".".intercalate place ++ "\n  " ++ issue.kind.detail?.getD issue.kind.name

/-- The wording of a declaration error. -/
def DeclarationError.message : DeclarationError → String
  | notAMapping => "Pipeline document must be a mapping"
  | invalid issues => "\n".intercalate ("Invalid pipeline declaration:" :: issues.map Issue.line)
  | job fault => fault.message
  | emptyMatrix name =>
    "job " ++ Text.enclosed name ++ " has an empty matrix: no combination is left to run"
  | fileNotFound path => "Workflow file not found: " ++ path
  | unknownFormat file => "Workflow must be a .yml, .yaml or .py file, got: " ++ file
  | unreadable file reason => "Could not parse " ++ file ++ ": " ++ reason

/-- Something wrong with the configuration. -/
inductive ConfigurationError
  /-- The jobs need each other in a circle; the path ends where it began. -/
  | cycle (path : List InstanceId)
  | unknownNeed (job need : String) (known : List String)
  | duplicateJobs (names : List String)
  | pattern (error : PatternError)
  | condition (error : ConditionError)
  | declaration (error : DeclarationError)
  /-- A variable that must be a number is something else. -/
  | notANumber (variableName text : String)
  | unreadableSecrets (file reason : String)
  | secretsNotMapping (file : String)
  deriving DecidableEq, Repr

/-- The wording of a configuration error. -/
def ConfigurationError.message : ConfigurationError → String
  | cycle path =>
    "Dependency cycle detected: " ++ " -> ".intercalate (path.map InstanceId.text)
  | unknownNeed name need known =>
    "Job " ++ Text.enclosed name ++ " needs missing job " ++ Text.enclosed need ++ ". Known jobs: " ++
      Text.quotedList (Text.sorted known)
  | duplicateJobs names => "Duplicate job names found: " ++ Text.quotedList (Text.sorted names)
  | pattern error => error.message
  | condition error => error.message
  | declaration error => error.message
  | notANumber variableName text => variableName ++ " must be a number, got " ++ Text.quoted text
  | unreadableSecrets file reason => "Could not read secrets file " ++ file ++ ": " ++ reason
  | secretsNotMapping file => "Secrets file " ++ file ++ " must be a mapping"

end CiPipeline
