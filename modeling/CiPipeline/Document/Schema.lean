import CiPipeline.Document.Fields

/-!
The objects of a pipeline document: the document itself, its jobs and their steps, and the events that
start a run. Each is read with all of its issues; conditions and patterns are still texts here.
-/

namespace CiPipeline

open CiPipeline.Document

/-- The field of a condition: `if`, or `if_` where only that is written. -/
def conditionField (fields : Fields) : String :=
  if (Value.field? "if" fields).isNone && (Value.field? "if_" fields).isSome then "if_" else "if"

/-- A field that may be absent or null. -/
def optionalField {α : Type} (name : String) (read : Value → Reading α) (fields : Fields) :
    Reading (Option α) :=
  defaulted name none (optional read) fields

/-- A step of a document. -/
structure StepDocument where
  name : Option String
  command : String
  condition : Option String
  cwd : Option String
  env : Table String String
  secrets : Table String String
  timeout : Option Number.Binary64

namespace StepDocument

/-- The fields of a step. -/
def fieldNames (fields : Fields) : List String :=
  ["name", "run", conditionField fields, "cwd", "env", "secrets", "timeout"]

/-- Reads the fields of a step. -/
def readFields (fields : Fields) : Reading StepDocument :=
  mk <$> optionalField "name" readText fields
    <*> required "run" readText fields
    <*> optionalField (conditionField fields) readText fields
    <*> optionalField "cwd" readText fields
    <*> defaulted "env" .empty readVariables fields
    <*> defaulted "secrets" .empty readVariables fields
    <*> optionalField "timeout" readPositive fields

/-- Reads a step. -/
def read : Value → Reading StepDocument :=
  objectOf fieldNames readFields

end StepDocument

/-- A matrix of a document: its axes, and the rules that take coordinates out. -/
structure MatrixDocument where
  axes : List (String × List Value) := []
  exclude : List Fields := []

namespace MatrixDocument

/-- The entry of a matrix that is no axis. -/
def excludeKey : String := "exclude"

/-- Whether a value may stand on an axis. -/
def isAxisValue : Value → Bool
  | .text _ | .int _ | .float _ | .nan _ | .bool _ => true
  | _ => false

/-- The matrix that some entries make; the first fault in their order is reported. -/
def ofEntries : List (String × List Value) → Except Issue.MatrixFault MatrixDocument
  | [] => .ok {}
  | (name, values) :: rest => do
    if name = excludeKey then
      match values.mapM Value.entries? with
      | none => throw .excludeNotMappings
      | some rules =>
        let matrix ← ofEntries rest
        return { matrix with exclude := rules ++ matrix.exclude }
    else if values.isEmpty then throw (.axisEmpty name)
    else if !values.all isAxisValue then throw (.axisNotScalar name)
    else
      let matrix ← ofEntries rest
      return { matrix with axes := (name, values) :: matrix.axes }

/-- Reads a matrix. Its entries are looked at together once each is a list under a name. -/
def read (value : Value) : Reading MatrixDocument :=
  (mappingOf (listOf .meaning) value).andThen fun table =>
    match ofEntries table.entries with
    | .ok matrix => .meaning matrix
    | .error fault => .fail (.matrix fault)

end MatrixDocument

/-- A job of a document. -/
structure JobDocument where
  name : Option String
  needs : List String
  condition : Option String
  env : Table String String
  matrix : MatrixDocument
  steps : List StepDocument

namespace JobDocument

/-- The fields of a job. -/
def fieldNames (fields : Fields) : List String :=
  ["name", "needs", conditionField fields, "env", "matrix", "steps"]

/-- The needs of a job; a single one may stand for itself. -/
def readNeeds : Value → Reading (List String)
  | .text need => .meaning [need]
  | value => listOf readText value

/-- Reads the fields of a job. -/
def readFields (fields : Fields) : Reading JobDocument :=
  mk <$> optionalField "name" readText fields
    <*> defaulted "needs" [] readNeeds fields
    <*> optionalField (conditionField fields) readText fields
    <*> defaulted "env" .empty readVariables fields
    <*> defaulted "matrix" {} MatrixDocument.read fields
    <*> required "steps" (fun value => requireSome (listOf StepDocument.read value)) fields

/-- Reads a job. -/
def read : Value → Reading JobDocument :=
  objectOf fieldNames readFields

end JobDocument

/-- The filters of a push in a document. -/
structure PushDocument where
  tags : Option (List String)
  branches : Option (List String)

/-- Reads the filters of a push. -/
def PushDocument.read : Value → Reading PushDocument :=
  objectOf (fun _ => ["tags", "branches"]) fun fields =>
    mk <$> optionalField "tags" (listOf readText) fields
      <*> optionalField "branches" (listOf readText) fields

/-- The filters of a pull request in a document. -/
structure PullRequestDocument where
  branches : Option (List String)
  types : Option (List String)

/-- Reads the filters of a pull request. -/
def PullRequestDocument.read : Value → Reading PullRequestDocument :=
  objectOf (fun _ => ["branches", "types"]) fun fields =>
    mk <$> optionalField "branches" (listOf readText) fields
      <*> optionalField "types" (listOf readText) fields

/-- The events of a document. -/
structure EventsDocument where
  push : Option PushDocument := none
  pullRequest : Option PullRequestDocument := none
  manual : Bool := false

namespace EventsDocument

/-- An event without anything said of it: pushes and pull requests have no filters, manual runs are on. -/
def complete (key value : Value) : Value × Value :=
  match key, value with
  | .text "push", .null => (key, .mapping [])
  | .text "pull_request", .null => (key, .mapping [])
  | .text "manual", .null => (key, .bool true)
  | .text "manual", .mapping [] => (key, .bool true)
  | _, _ => (key, value)

/-- The entries of some names of events, one entry for each of them. -/
def bare (names : List Value) : Fields :=
  Value.writeEntries (names.map fun name => (name, .mapping []))

/-- The entries of events. A name, or a list of names, stands for events of which nothing is said. -/
def entriesOf? (value : Value) : Option Fields :=
  match value, value.listed? with
  | .text _, _ => some (bare [value])
  | _, some names => some (bare names)
  | _, none => value.entries?

/-- Events in full. -/
def expand (value : Value) : Value :=
  match entriesOf? value with
  | some entries => .mapping (entries.map fun (key, value) => complete key value)
  | none => value

/-- Reads events that are written in full. -/
def readFull : Value → Reading EventsDocument :=
  objectOf (fun _ => ["push", "pull_request", "manual"]) fun fields =>
    mk <$> optionalField "push" PushDocument.read fields
      <*> optionalField "pull_request" PullRequestDocument.read fields
      <*> defaulted "manual" false readFlag fields

/-- Reads events. -/
def read (value : Value) : Reading EventsDocument :=
  readFull (expand value)

end EventsDocument

/-- A pipeline document. -/
structure PipelineDocument where
  name : String
  events : EventsDocument
  jobs : Table String JobDocument

namespace PipelineDocument

/-- Reads a pipeline document. -/
def read : Value → Reading PipelineDocument :=
  objectOf (fun _ => ["name", "on", "jobs"]) fun fields =>
    mk <$> defaulted "name" "pipeline" readText fields
      <*> defaulted "on" {} EventsDocument.read fields
      <*> required "jobs" (fun value => requireEntry (mappingOf JobDocument.read value)) fields

end PipelineDocument
end CiPipeline
