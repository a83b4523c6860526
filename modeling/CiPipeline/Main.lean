import CiPipeline.CommandLine.Session

/-!
The program. It reads what a session sees of the world, holds the session and prints what comes of it.
Starting processes is not its work: a command is refused, and every question to a checkout is too.
-/

namespace CiPipeline.CommandLine

/-- The variables of the process. -/
def processEnvironment : IO Environment := do
  let text ← IO.FS.readFile "/proc/self/environ"
  return .ofList ((text.splitOn "\x00").filterMap fun entry =>
    match Words.splitValue entry with
    | (name, some value) => some (name, value)
    | (_, none) => none)

/-- The text of a file, if it can be read. -/
def readIfPossible (file : String) : IO (Option String) :=
  tryCatch (some <$> IO.FS.readFile file) fun _ => return none

/-- The workspace of the process: its directory, and the files that a command line names. -/
def processWorkspace (environment : Environment) (args : List String) : IO Workspace := do
  let root := Path.resolve [] (← IO.currentDir).toString
  let named := args ++ args.filterMap (fun arg => (Words.splitValue arg).2) ++ defaultWorkflows
  let texts ← named.filterMapM fun file => do
    return (← readIfPossible (root.resolve file).text).map fun text => (root.resolve file, text)
  return {
    root := root
    isDirectory := fun path => path.isPrefixOf root
    content? := fun path => texts.lookup path
    home? := fun user => if user.isEmpty then environment.get? "HOME" else none }

/-- The second at which the machine was started, and the seconds since then. -/
def readClock (stat uptime : String) : Option Int := do
  let line ← (stat.splitOn "\n").find? ("btime ".isPrefixOf ·)
  let started ← Number.int? (String.ofList (line.toList.drop "btime ".length))
  let elapsed ← Number.int? ((uptime.splitOn ".").headD "")
  return started + elapsed

/-- The present moment. -/
def presentMoment : IO Timestamp := do
  let seconds := readClock (← IO.FS.readFile "/proc/stat") (← IO.FS.readFile "/proc/uptime")
  return ⟨seconds.getD 0 * 1000000⟩

/-- Prints what a session printed, leaves its report and gives the status of the process. -/
def conclude (session : Session) : IO UInt32 := do
  IO.print (Printed.textOf session.printed.out)
  IO.eprint (Printed.textOf session.printed.err)
  if let some (path, report) := session.report then
    IO.FS.writeFile path.text (report.toValue.json (.indented 0))
  match session.ending with
  | .exited status => return UInt32.ofNat status.toNat
  | .rejected fault =>
    IO.eprint (Printed.textOf
      ["Usage: " ++ groupUse programName, "", "Error: " ++ fault.message])
    return 2
  | .escaped error =>
    IO.eprint (Printed.textOf [error.kind])
    return 1

end CiPipeline.CommandLine

open CiPipeline CommandLine in
/-- Uses the program with the words of the command line. -/
def main (args : List String) : IO UInt32 := do
  let environment ← processEnvironment
  let surroundings : Surroundings := {
    workspace := ← processWorkspace environment args
    environment := environment
    processors := none
    runner := fun _ => .refused "OSError" "commands are not started here"
    checkout := ⟨fun _ => .error .notInstalled⟩
    now := ← presentMoment }
  conclude (execute surroundings args)
