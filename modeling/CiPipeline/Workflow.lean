import CiPipeline.Document.Pipeline
import CiPipeline.Workspace
import CiPipeline.Yaml.Document

/-!
Workflow files: which files of a workspace declare a pipeline, and the pipeline that one declares.
-/

namespace CiPipeline

/-- The files that are looked for where none is named. -/
def defaultWorkflows : List String := ["cigraph.yml", "cigraph.yaml", "cigraph_workflow.py"]

/-- The endings of files that hold a document. -/
def documentSuffixes : List String := [".yml", ".yaml"]

/-- The ending of files that hold a program. -/
def programSuffix : String := ".py"

/-- Refuses a file. -/
def refuseWorkflow {α : Type} (error : DeclarationError) : Except DocumentError α :=
  .error (.configuration (.declaration error))

/-- The pipeline that a text in YAML declares; the name of its file is for messages. -/
def Pipeline.ofText (fileName text : String) : Except DocumentError Pipeline :=
  match Yaml.read text with
  | .ok document => Pipeline.ofDocument document
  | .error (.value fault) => .error (.noValue fault)
  | .error fault => refuseWorkflow (.unreadable fileName fault.message)

/-- The pipeline that a file declares. Only files that hold a document are read. -/
def Pipeline.ofFile (workspace : Workspace) (text : String) : Except DocumentError Pipeline := do
  let some text := workspace.expandHome text | throw .homeless
  let unreachable := fun (place : String) (fault : PathFault) => DocumentError.unreachable fault place
  let path ← (workspace.resolve text).mapError (unreachable text)
  let name := path.fileName
  let found ← (workspace.leadsTo workspace.contains path.text).mapError (unreachable path.text)
  if !found then refuseWorkflow (.fileNotFound path.text)
  else if documentSuffixes.contains (Path.suffix name) then
    Pipeline.ofText name (← (workspace.read path).mapError (unreachable path.text))
  else if Path.suffix name = programSuffix then
    refuseWorkflow (.unreadable name "it is not a document")
  else refuseWorkflow (.unknownFormat name)

end CiPipeline
