import CiPipeline.CommandLine.Option
import CiPipeline.Event
import CiPipeline.Number.Numeral
import CiPipeline.Workspace

/-!
What a command line asks for: the plan of a workflow, or a run of it, for one event.
-/

namespace CiPipeline.CommandLine

/-- The name of the program. -/
def programName : String := "cigraph"

/-- The workflow and the event that are meant. -/
structure EventOptions where
  workflow : Option String := none
  kind : EventKind := .push
  ref : Option String := none
  /-- What a bare ref names. -/
  refType : Option String := none
  base : Option String := none
  action : Option String := none

/-- How a run is to be carried out. -/
structure RunOptions where
  event : EventOptions
  workers : Option Int := none
  failFast : Option Bool := none
  cancelledSatisfiesNeeds : Option Bool := none
  timeout : Option Number.Binary64 := none
  secretsFile : Option String := none
  secretPrefix : String := ""
  showOutput : Bool := false
  reportFile : Option String := none

/-- The name of a command. -/
inductive CommandName
  | run
  | plan
  deriving DecidableEq, Repr

/-- The command with a name. -/
def CommandName.ofText? : String → Option CommandName
  | "run" => some run
  | "plan" => some plan
  | _ => none

/-- A request to a command. -/
inductive Request
  | help
  | plan (options : EventOptions)
  | run (options : RunOptions)

/-- The option that asks for help. -/
def helpForm : OptionForm := ⟨"--help", false⟩

/-- The options before the command. -/
def groupForms : List OptionForm :=
  [⟨"--debug", false⟩, helpForm]

/-- The options of both commands. -/
def eventForms : List OptionForm :=
  [{ name := "--workflow" }, { name := "--event" }, { name := "--ref" }, ⟨"--tag", false⟩,
    ⟨"--branch", false⟩, { name := "--base" }, { name := "--action" }, helpForm]

/-- The option whose value is the file of a report. -/
def reportOption : String := "--report-json"

/-- The options of a run. -/
def runForms : List OptionForm :=
  eventForms ++ [{ name := "--workers" }, ⟨"--fail-fast", false⟩, ⟨"--no-fail-fast", false⟩,
    ⟨"--cancelled-satisfies-needs", false⟩, ⟨"--cancelled-blocks-needs", false⟩,
    { name := "--timeout" }, { name := "--secrets-file" }, { name := "--secret-prefix" },
    ⟨"--show-output", false⟩, { name := reportOption }]

/-- The options of a command. -/
def CommandName.forms : CommandName → List OptionForm
  | run => runForms
  | plan => eventForms

/-- Why words make no request. -/
inductive RequestFault
  | usage (fault : UsageFault)
  /-- The system cannot tell what stands where the report is to be left. -/
  | report (fault : PathFault)
  deriving DecidableEq, Repr

/-- What is wrong with the file that is named for the report: it must not be a directory. -/
def reportFault? (workspace : Workspace) (file : String) : Option RequestFault :=
  if file.toList.contains (Char.ofNat 0) then some (.report .nullByte)
  else
    match workspace.leadsTo workspace.isDirectory file with
    | .ok true => if file.isEmpty then none else some (.usage (.badValue reportOption file))
    | _ => none

/-- What is wrong with the value of an option. -/
def optionFault? (workspace : Workspace) (words : Words) (name : String) : Option RequestFault := do
  let text ← words.value? name
  let refuseUnless := fun (readable : Bool) =>
    if readable then none else some (RequestFault.usage (.badValue name text))
  match name with
  | "--event" => refuseUnless (EventKind.ofName? text).isSome
  | "--workers" => refuseUnless (Number.int? text).isSome
  | "--timeout" => refuseUnless (Number.float? text).isSome
  | _ => if name = reportOption then reportFault? workspace text else none

/-- What is wrong with the options that were given; they are looked at in the order of the command line. -/
def wordsFault? (workspace : Workspace) (words : Words) : Option RequestFault :=
  words.given.findSome? fun option => optionFault? workspace words option.name

/-- The workflow and the event that some words mean. -/
def EventOptions.ofWords (words : Words) : EventOptions where
  workflow := words.value? "--workflow"
  kind := ((words.value? "--event").bind EventKind.ofName?).getD .push
  ref := words.value? "--ref"
  refType := (words.switch? "--tag" "--branch").map fun isTag => if isTag then "tag" else "branch"
  base := words.value? "--base"
  action := words.value? "--action"

/-- The run that some words ask for. -/
def RunOptions.ofWords (words : Words) : RunOptions where
  event := EventOptions.ofWords words
  workers := (words.value? "--workers").bind Number.int?
  failFast := words.switch? "--fail-fast" "--no-fail-fast"
  cancelledSatisfiesNeeds := words.switch? "--cancelled-satisfies-needs" "--cancelled-blocks-needs"
  timeout := (words.value? "--timeout").bind Number.float?
  secretsFile := words.value? "--secrets-file"
  secretPrefix := (words.value? "--secret-prefix").getD ""
  showOutput := words.has "--show-output"
  reportFile := words.value? reportOption

/-- The request that the words after the name of a command make. -/
def Request.ofWords (workspace : Workspace) (command : CommandName) (args : List String) :
    Except RequestFault Request := do
  let words ← (Words.sort command.forms true args).mapError .usage
  if words.has helpForm.name then return .help
  match wordsFault? workspace words, words.others with
  | some fault, _ => throw fault
  | none, word :: _ => throw (.usage (.needlessWord word))
  | none, [] =>
    return match command with
      | .plan => .plan (EventOptions.ofWords words)
      | .run => .run (RunOptions.ofWords words)

/-- What comes before the options of a command. -/
structure Invocation where
  debug : Bool
  /-- The command and its words; without a command help is wanted. -/
  command : Option (CommandName × List String)

/--
The invocation that all words of a command line make. Words that stand where the command belongs and begin
with an option may ask for help too.
-/
def Invocation.ofArgs (args : List String) : Except UsageFault Invocation := do
  let words ← Words.sort groupForms false args
  let debug := words.has "--debug"
  if words.has helpForm.name then return ⟨debug, none⟩
  match words.others with
  | [] => throw .noCommand
  | name :: rest =>
    match CommandName.ofText? name with
    | some command => return ⟨debug, some (command, rest)⟩
    | none =>
      if (← Words.sort groupForms false words.others).has helpForm.name then return ⟨debug, none⟩
      else throw (.unknownCommand name)

end CiPipeline.CommandLine
