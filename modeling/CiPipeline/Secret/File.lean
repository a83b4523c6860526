import CiPipeline.Error
import CiPipeline.Secret
import CiPipeline.Workspace
import CiPipeline.Yaml.Document

/-!
Secrets that a file lists: a mapping from names to values, in YAML.
-/

namespace CiPipeline

/-- Whether a value counts as nothing: null, false, zero, and what is empty. -/
def Value.isNothing : Value → Bool
  | null => true
  | bool b => !b
  | int n => n == 0
  | float x => x.isInt 0
  | text s => s.isEmpty
  | bytes codes => codes.isEmpty
  | list items | set items => items.isEmpty
  | mapping entries => entries.isEmpty
  | nan _ | time _ | pair _ _ | knot _ _ | again _ => false

/-- Why a file lists no secrets. -/
inductive SecretsFileError
  | configuration (error : ConfigurationError)
  /-- No file can have the name. -/
  | noName (fault : PathFault)
  /-- A scalar of the file has no value. -/
  | noValue (fault : Yaml.ValueFault)
  /-- A value has no text. -/
  | valueTooLong
  deriving DecidableEq, Repr

namespace SecretsFileError

/-- The wording of an error. -/
def message : SecretsFileError → String
  | configuration error => error.message
  | noName fault => fault.message ""
  | noValue fault => fault.message
  | valueTooLong => Value.tooLongText

/-- The kind of an error, for those who look for its cause. -/
def kind : SecretsFileError → String
  | configuration _ => "ConfigurationError"
  | noName fault => fault.kind
  | noValue fault => fault.kind
  | valueTooLong => "ValueError"

end SecretsFileError

/-- The secrets of a mapping: values of any kind count by their text. -/
def SecretProvider.ofEntries (entries : List (Value × Value)) : SecretProvider :=
  .ofTable (.ofList (entries.filterMap fun
    | (.text name, value) => some (name, value.asText)
    | _ => Option.none))

/-- The secrets that a document lists; one that holds nothing lists none. -/
def SecretProvider.ofDocument (file : String) (document : Value) :
    Except SecretsFileError SecretProvider :=
  match document.entries? with
  | some entries =>
    if Value.anyTooLong (entries.map Prod.snd) then .error .valueTooLong else .ok (.ofEntries entries)
  | Option.none =>
    if document.isNothing then .ok .none else .error (.configuration (.secretsNotMapping file))

/-- The secrets that a file lists. -/
def SecretProvider.ofFile (workspace : Workspace) (file : String) :
    Except SecretsFileError SecretProvider :=
  let unreadable := fun reason => SecretsFileError.configuration (.unreadableSecrets file reason)
  match workspace.locate file >>= workspace.read with
  | .ok content =>
    match Yaml.read content with
    | .ok document => SecretProvider.ofDocument file document
    | .error (.value fault) => .error (.noValue fault)
    | .error fault => .error (unreadable fault.message)
  | .error fault =>
    .error (if fault.description?.isSome then unreadable (fault.message (Path.tidy file)) else .noName fault)

end CiPipeline
